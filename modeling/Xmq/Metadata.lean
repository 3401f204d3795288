import Mathlib.Data.List.Basic
import Xmq.KeyedLoop

/-!
# The metadata file

What a node writes about its topics and channels, and reads when it starts. What the metadata can say of
a node is its `Listing`. Loading a file into a listing adds what can be created and sets pauses; it never
clears one, and it ends at a channel that is to be paused and cannot be had.
-/

namespace Xmq

structure ChannelMetadata where
  name : String
  paused : Bool
  deriving DecidableEq

structure TopicMetadata where
  name : String
  paused : Bool
  channels : List ChannelMetadata
  deriving DecidableEq

structure Metadata where
  topics : List TopicMetadata
  version : String
  deriving DecidableEq

/-- Every name is there once. -/
structure Metadata.Distinct (m : Metadata) : Prop where
  topics : (m.topics.map TopicMetadata.name).Nodup
  channels : ∀ t ∈ m.topics, (t.channels.map ChannelMetadata.name).Nodup

/-! ### Listings -/

/-- Whether the topic and each of its channels are paused. -/
structure TopicListing where
  paused : Bool
  channels : String → Option Bool

abbrev Listing := String → Option TopicListing

/-- What can be created. -/
structure Creates where
  topic : String → Bool
  channel : String → String → Bool

variable {creates : Creates}

namespace ChannelMetadata

def load (create : Bool) (c : ChannelMetadata) : Option Bool → Option (Option Bool)
  | some paused => some (some (paused || c.paused))
  | none => if create then some (some c.paused) else if c.paused then none else some none

/-- It is there and not paused wrongly, or can be created. -/
def Ready (create : Bool) (c : ChannelMetadata) : Option Bool → Prop
  | some paused => c.paused = false → paused = false
  | none => create = true

/-- It need not be paused, or can be had. -/
def Pausable (create : Bool) (c : ChannelMetadata) (x : Option Bool) : Prop :=
  c.paused = true → x.isSome ∨ create = true

theorem load_eq_paused {create : Bool} {c : ChannelMetadata} {x : Option Bool} :
    (∃ v, c.load create x = some v ∧ v = some c.paused) ↔ c.Ready create x := by
  cases x with
  | none => cases create <;> cases h : c.paused <;> simp [load, Ready, h]
  | some paused => cases paused <;> cases h : c.paused <;> simp [load, Ready, h]

theorem load_isSome {create : Bool} {c : ChannelMetadata} {x : Option Bool} :
    (c.load create x).isSome ↔ c.Pausable create x := by
  cases x with
  | none => cases create <;> cases h : c.paused <;> simp [load, Pausable, h]
  | some paused => simp [load, Pausable]

end ChannelMetadata

namespace TopicMetadata

variable {t : TopicMetadata}

def loadChannels (creates : Creates) (t : TopicMetadata) :
    (String → Option Bool) → Option (String → Option Bool) :=
  KeyedLoop.loop ChannelMetadata.name (fun c => c.load (creates.channel t.name c.name)) t.channels

def load (creates : Creates) (t : TopicMetadata) : Option TopicListing → Option (Option TopicListing)
  | some x =>
    (t.loadChannels creates x.channels).map fun channels => some ⟨x.paused || t.paused, channels⟩
  | none =>
    if creates.topic t.name then
      (t.loadChannels creates fun _ => none).map fun channels => some ⟨t.paused, channels⟩
    else some none

def Ready (creates : Creates) (t : TopicMetadata) : Option TopicListing → Prop
  | some x => (t.paused = false → x.paused = false) ∧
    ∀ c ∈ t.channels, c.Ready (creates.channel t.name c.name) (x.channels c.name)
  | none => creates.topic t.name = true ∧
    ∀ c ∈ t.channels, c.Ready (creates.channel t.name c.name) none

/-- Where the topic can be had, so can the channels that are to be paused. -/
def Pausable (creates : Creates) (t : TopicMetadata) : Option TopicListing → Prop
  | some x => ∀ c ∈ t.channels, c.Pausable (creates.channel t.name c.name) (x.channels c.name)
  | none => creates.topic t.name = true →
    ∀ c ∈ t.channels, c.Pausable (creates.channel t.name c.name) none

/-- The listing has the topic and all its channels, with their pauses. -/
def ListedIn (t : TopicMetadata) (x : Option TopicListing) : Prop :=
  ∃ y, x = some y ∧ y.paused = t.paused ∧ ∀ c ∈ t.channels, y.channels c.name = some c.paused

theorem loadChannels_listed (hnodup : (t.channels.map ChannelMetadata.name).Nodup)
    (channels : String → Option Bool) :
    (∃ channels', t.loadChannels creates channels = some channels' ∧
        ∀ c ∈ t.channels, channels' c.name = some c.paused) ↔
      ∀ c ∈ t.channels, c.Ready (creates.channel t.name c.name) (channels c.name) := by
  have hloop := KeyedLoop.loop_forall (f := fun c : ChannelMetadata =>
    c.load (creates.channel t.name c.name)) hnodup (s := channels) (P := fun c v => v = some c.paused)
  simp only [ChannelMetadata.load_eq_paused] at hloop
  exact hloop

theorem loadChannels_isSome (hnodup : (t.channels.map ChannelMetadata.name).Nodup)
    {channels : String → Option Bool} : (t.loadChannels creates channels).isSome ↔
      ∀ c ∈ t.channels, c.Pausable (creates.channel t.name c.name) (channels c.name) := by
  have hloop := KeyedLoop.loop_isSome (f := fun c : ChannelMetadata =>
    c.load (creates.channel t.name c.name)) hnodup (s := channels)
  simp only [ChannelMetadata.load_isSome] at hloop
  exact hloop

theorem load_listed (hnodup : (t.channels.map ChannelMetadata.name).Nodup)
    {x : Option TopicListing} :
    (∃ v, t.load creates x = some v ∧ t.ListedIn v) ↔ t.Ready creates x := by
  cases x with
  | none =>
      rw [Ready, load, ← loadChannels_listed hnodup fun _ => none]
      by_cases hcreate : creates.topic t.name = true
      · rw [if_pos hcreate]
        constructor
        · rintro ⟨v, hv, y, rfl, -, hy⟩
          obtain ⟨channels, hload, heq⟩ := Option.map_eq_some_iff.mp hv
          cases heq
          exact ⟨hcreate, channels, hload, hy⟩
        · rintro ⟨-, channels, hchannels, hy⟩
          exact ⟨_, Option.map_eq_some_iff.mpr ⟨channels, hchannels, rfl⟩, _, rfl, rfl, hy⟩
      · rw [if_neg hcreate]
        refine iff_of_false ?_ fun h => hcreate h.1
        rintro ⟨v, hv, y, rfl, -⟩
        cases hv
  | some x =>
      rw [Ready, load, ← loadChannels_listed hnodup]
      have hpaused : (x.paused || t.paused) = t.paused ↔ (t.paused = false → x.paused = false) := by
        cases x.paused <;> cases t.paused <;> decide
      rw [← hpaused]
      constructor
      · rintro ⟨v, hv, y, rfl, hflag, hy⟩
        obtain ⟨channels, hchannels, heq⟩ := Option.map_eq_some_iff.mp hv
        cases heq
        exact ⟨hflag, channels, hchannels, hy⟩
      · rintro ⟨hflag, channels, hchannels, hy⟩
        exact ⟨_, Option.map_eq_some_iff.mpr ⟨channels, hchannels, rfl⟩, _, rfl, hflag, hy⟩

theorem load_isSome (hnodup : (t.channels.map ChannelMetadata.name).Nodup)
    {x : Option TopicListing} : (t.load creates x).isSome ↔ t.Pausable creates x := by
  cases x with
  | none =>
      rw [load, Pausable]
      by_cases hcreate : creates.topic t.name = true
      · rw [if_pos hcreate, Option.isSome_map, loadChannels_isSome hnodup]
        exact ⟨fun h _ => h, fun h => h hcreate⟩
      · rw [if_neg hcreate]
        exact iff_of_true rfl fun h => absurd h hcreate
  | some x => rw [load, Pausable, Option.isSome_map, loadChannels_isSome hnodup]

/-- Loading a topic adds none but its own channels. -/
theorem load_channels (hnodup : (t.channels.map ChannelMetadata.name).Nodup)
    {x : Option TopicListing} {y : TopicListing} (h : t.load creates x = some (some y)) {c : String}
    (hc : c ∉ t.channels.map ChannelMetadata.name) :
    y.channels c = x.bind fun x => x.channels c := by
  cases x with
  | none =>
      obtain ⟨hcreate, h⟩ | ⟨-, h⟩ := (ite_eq_iff.mp h)
      · obtain ⟨channels, hchannels, heq⟩ := Option.map_eq_some_iff.mp h
        cases heq
        exact ((KeyedLoop.loop_eq_some hnodup).mp hchannels).2 c hc
      · cases h
  | some x =>
      obtain ⟨channels, hchannels, heq⟩ := Option.map_eq_some_iff.mp h
      cases heq
      exact ((KeyedLoop.loop_eq_some hnodup).mp hchannels).2 c hc

end TopicMetadata

/-! ### Loading a file -/

namespace Metadata

variable {m : Metadata} {l l' : Listing}

def load (creates : Creates) (m : Metadata) : Listing → Option Listing :=
  KeyedLoop.loop TopicMetadata.name (TopicMetadata.load creates) m.topics

def Ready (creates : Creates) (m : Metadata) (l : Listing) : Prop :=
  ∀ t ∈ m.topics, t.Ready creates (l t.name)

def Pausable (creates : Creates) (m : Metadata) (l : Listing) : Prop :=
  ∀ t ∈ m.topics, t.Pausable creates (l t.name)

def ListedIn (m : Metadata) (l : Listing) : Prop := ∀ t ∈ m.topics, t.ListedIn (l t.name)

/-- **Loading lists the file** exactly when it is ready for it. -/
theorem load_listed (hm : m.Distinct) :
    (∃ l', m.load creates l = some l' ∧ m.ListedIn l') ↔ m.Ready creates l := by
  rw [load, Ready]
  refine (KeyedLoop.loop_forall hm.topics).trans (forall₂_congr fun t ht => ?_)
  exact TopicMetadata.load_listed (hm.channels t ht)

theorem load_isSome (hm : m.Distinct) : (m.load creates l).isSome ↔ m.Pausable creates l := by
  rw [load, Pausable]
  refine (KeyedLoop.loop_isSome hm.topics).trans (forall₂_congr fun t ht => ?_)
  exact TopicMetadata.load_isSome (hm.channels t ht)

/-- Loading adds no topic but those of the file. -/
theorem load_topics (hm : m.Distinct) (h : m.load creates l = some l') {t : String}
    (ht : t ∉ m.topics.map TopicMetadata.name) : l' t = l t :=
  ((KeyedLoop.loop_eq_some hm.topics).mp h).2 t ht

theorem load_topic (hm : m.Distinct) (h : m.load creates l = some l') {t : TopicMetadata}
    (ht : t ∈ m.topics) : t.load creates (l t.name) = some (l' t.name) :=
  ((KeyedLoop.loop_eq_some hm.topics).mp h).1 t ht

end Metadata

end Xmq
