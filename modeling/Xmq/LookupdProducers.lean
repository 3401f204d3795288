import Xmq.ClusterTotals
import Xmq.KeyedList

/-!
# The nodes of several lookupds

`GetLookupdProducers` asks every lookupd for its nodes at once. The answers are merged under a lock,
so one after another in the order in which they come; a listing of a node that is known already adds
only the address at which that lookupd sees it.

* Which nodes there are and where they are seen is the same in every order.
* The topics and the version of a node are those of its first listing. Where the listings disagree,
  the order of the answers decides.
* The highest version is that of the listings that were first, and `0.0.0` to begin with.
-/

namespace Xmq.ClusterInfo

open KeyedList (item upsert gathered)
open Quantile (Sorting)
open Lookupd (ClusterProducer ProducerTopic Semver)

variable {V : Type}

/-- `TCPAddress`. -/
def tcpAddress (p : ClusterProducer V) : String :=
  joinHostPort p.broadcastAddress (toString p.tcpPort)

/-- `Address`. -/
def address (p : ClusterProducer V) : String :=
  if p.remoteAddress = "" then "N/A" else p.remoteAddress

/-- `Version.LT`, a strict weak order, and the version `0.0.0`. -/
structure Versions (V : Type) where
  lt : V → V → Bool
  zero : V
  trans : ∀ {u v w}, lt u v = true → lt v w = true → lt u w = true
  between : ∀ {u w} v, lt u w = true → lt u v = true ∨ lt v w = true

/-- A lookupd, and what `GETV1` returns for it: producers as `UnmarshalJSON` makes them, or an
error. -/
structure Response (V : Type) where
  addr : String
  get : String → Except String (List (ClusterProducer V))
  unseen : ∀ endpoint ps, get endpoint = .ok ps → ∀ p ∈ ps, p.remoteAddresses = [] ∧
    p.outOfDate = false

/-- What `UnmarshalJSON` makes is unseen. -/
theorem unmarshalJSON_unseen (semver : Semver) {b : GoJson.Value}
    {p : ClusterProducer semver.Version} (h : Lookupd.unmarshalJSON semver b = .ok p) :
    p.remoteAddresses = [] ∧ p.outOfDate = false := by
  rw [Lookupd.unmarshalJSON] at h
  split at h
  · cases h
  · split at h
    · cases h
    · cases h
      exact ⟨rfl, rfl⟩

def Response.resp (r : Response V) : Except String (List (ClusterProducer V)) :=
  r.get s!"http://{r.addr}/nodes"

/-! ### Merging -/

/-- The pointers of the slice `producers` are those of the map `producersByAddr`, which has them by
their TCP addresses. -/
structure Nodes (V : Type) where
  producers : List (ClusterProducer V)
  maxVersion : V
  errs : List String

variable (s : Sorting) (o : Versions V)

/-- `sort.Sort(producer.Topics)`. -/
def withSortedTopics (producer : ClusterProducer V) : ClusterProducer V :=
  { producer with topics := s.sort (fun a b => a.topic < b.topic) producer.topics }

/-- `p.RemoteAddresses = append(p.RemoteAddresses, …)`. -/
def addRemote (p : ClusterProducer V) (listing : String × ClusterProducer V) : ClusterProducer V :=
  { p with remoteAddresses := p.remoteAddresses ++ [s!"{listing.1}/{address listing.2}"] }

/-- A producer of the answer of the lookupd at `addr`. -/
def addProducer (st : Nodes V) (listing : String × ClusterProducer V) : Nodes V where
  producers := upsert tcpAddress (tcpAddress listing.2) (withSortedTopics s listing.2)
    (fun p => addRemote p listing) st.producers
  maxVersion :=
    match item tcpAddress (tcpAddress listing.2) st.producers with
    | some _ => st.maxVersion
    | none => if o.lt st.maxVersion listing.2.versionObj then listing.2.versionObj else st.maxVersion
  errs := st.errs

/-- An answer. -/
def mergeResponse (st : Nodes V) (r : Response V) : Nodes V :=
  match r.resp with
  | .error err => { st with errs := st.errs ++ [err] }
  | .ok ps => (ps.map fun p => (r.addr, p)).foldl (addProducer s o) st

/-- `OutOfDate`, of a producer. -/
def markOutOfDate (maxVersion : V) (p : ClusterProducer V) : ClusterProducer V :=
  if o.lt p.versionObj maxVersion then { p with outOfDate := true } else p

/-- `sort.Sort(ProducersByHost{producers})`. -/
def sortByHost (producers : List (ClusterProducer V)) : List (ClusterProducer V) :=
  s.sort (fun a b => a.hostname < b.hostname) producers

/-- `GetLookupdProducers`, with the answers in the order in which they come: the errors when there
is no answer, else the producers, and the errors of those that failed. -/
def getLookupdProducers (responses : List (Response V)) :
    Except (List String) (List (ClusterProducer V) × List String) :=
  let st := responses.foldl (mergeResponse s o) ⟨[], o.zero, []⟩
  if st.errs.length = responses.length then .error st.errs
  else .ok (sortByHost s (st.producers.map (markOutOfDate o st.maxVersion)), st.errs)

/-! ### What it should be -/

/-- The producers that a lookupd lists. -/
def Response.listings (r : Response V) : List (String × ClusterProducer V) :=
  match r.resp with
  | .error _ => []
  | .ok ps => ps.map fun p => (r.addr, p)

def Response.errs (r : Response V) : List String :=
  match r.resp with
  | .error err => [err]
  | .ok _ => []

/-- All listings, in the order of the answers. -/
def listings (responses : List (Response V)) : List (String × ClusterProducer V) :=
  responses.flatMap Response.listings

/-- The listings of the node at a TCP address. -/
def listingsAt (k : String) (responses : List (Response V)) : List (String × ClusterProducer V) :=
  (listings responses).filter fun l => tcpAddress l.2 = k

/-- All listings of a node have the same version. -/
def SameVersions (responses : List (Response V)) : Prop :=
  ∀ l ∈ listings responses, ∀ l' ∈ listings responses,
    tcpAddress l.2 = tcpAddress l'.2 → l.2.versionObj = l'.2.versionObj

/-- All listings of the node have the same topics and flags. -/
def SameTopics (k : String) (responses : List (Response V)) : Prop :=
  ∀ l ∈ listingsAt k responses, ∀ l' ∈ listingsAt k responses, l.2.topics.Perm l'.2.topics

/-- The producers that answers in this order give. -/
structure Shown (responses : List (Response V)) (ps : List (ClusterProducer V)) : Prop where
  nodup : (ps.map tcpAddress).Nodup
  listed : ∀ k, k ∈ ps.map tcpAddress ↔ ∃ l ∈ listings responses, tcpAddress l.2 = k
  remote : ∀ p ∈ ps, p.remoteAddresses =
    (listingsAt (tcpAddress p) responses).map fun l => s!"{l.1}/{address l.2}"
  first : ∀ p ∈ ps, ∃ l, (listingsAt (tcpAddress p) responses).head? = some l ∧
    p.topics.Perm l.2.topics ∧ p.versionObj = l.2.versionObj
  outOfDate : ∀ p ∈ ps, p.outOfDate = true ↔
    o.lt p.versionObj o.zero = true ∨ ∃ p' ∈ ps, o.lt p.versionObj p'.versionObj = true

/-- The producers that answers in two orders give. -/
structure SameNodes (responses : List (Response V)) (ps ps' : List (ClusterProducer V)) : Prop where
  addresses : ∀ k, k ∈ ps.map tcpAddress ↔ k ∈ ps'.map tcpAddress
  remote : ∀ p ∈ ps, ∀ p' ∈ ps', tcpAddress p = tcpAddress p' →
    p.remoteAddresses.Perm p'.remoteAddresses
  topics : ∀ p ∈ ps, ∀ p' ∈ ps', tcpAddress p = tcpAddress p' →
    SameTopics (tcpAddress p) responses →
    p.topics.Perm p'.topics
  outOfDate : SameVersions responses → ∀ p ∈ ps,
    (p.outOfDate = true ↔ o.lt p.versionObj o.zero = true ∨
      ∃ l ∈ listings responses, o.lt p.versionObj l.2.versionObj = true) ∧
    ∀ p' ∈ ps', tcpAddress p = tcpAddress p' → p.outOfDate = p'.outOfDate

/-! ### One order -/

section Merge

variable {s o} {ls : List (String × ClusterProducer V)} {st : Nodes V} {k : String}

/-- The producers are what the listings make, and the version is the highest of those that were
first. -/
structure Merged (s : Sorting) (o : Versions V) (ls : List (String × ClusterProducer V))
    (st : Nodes V) :
    Prop where
  nodup : (st.producers.map tcpAddress).Nodup
  item : ∀ k, item tcpAddress k st.producers =
    gathered (fun l => tcpAddress l.2) (fun l => withSortedTopics s l.2) addRemote k ls
  maxVersion : ∀ v, o.lt v st.maxVersion = true ↔
    o.lt v o.zero = true ∨ ∃ p ∈ st.producers, o.lt v p.versionObj = true

/-- The higher of two versions. -/
theorem Versions.lt_max (o : Versions V) (u v w : V) :
    o.lt u (if o.lt v w then w else v) = true ↔ o.lt u v = true ∨ o.lt u w = true := by
  split
  case isTrue hvw => exact ⟨Or.inr, Or.rec (fun h => o.trans h hvw) fun h => h⟩
  case isFalse hvw => exact ⟨Or.inl, Or.rec (fun h => h) fun h => (o.between v h).resolve_right hvw⟩

/-- What a listing changes of the versions. -/
theorem mem_upsert_versions (l : List (ClusterProducer V)) (listing : String × ClusterProducer V)
    (P : V → Prop) :
    (∃ p ∈ upsert tcpAddress (tcpAddress listing.2) (withSortedTopics s listing.2)
        (fun p => addRemote p listing) l, P p.versionObj) ↔
      (∃ p ∈ l, P p.versionObj) ∨
        item tcpAddress (tcpAddress listing.2) l = none ∧ P listing.2.versionObj := by
  induction l with
  | nil =>
      simp only [upsert, List.mem_singleton, exists_eq_left, List.not_mem_nil, false_and,
        exists_false,
        false_or]
      exact ⟨fun h => ⟨rfl, h⟩, fun h => h.2⟩
  | cons a l ih =>
      rw [upsert, KeyedList.item_cons]
      by_cases ha : tcpAddress a = tcpAddress listing.2
      · rw [if_pos ha, if_pos ha]
        simp only [List.mem_cons, exists_eq_or_imp, reduceCtorEq, false_and, or_false]
        exact Iff.rfl
      · rw [if_neg ha, if_neg ha]
        simp only [List.mem_cons, exists_eq_or_imp, ih, or_assoc]

theorem tcpAddress_withSortedTopics (s : Sorting) (p : ClusterProducer V) :
    tcpAddress (withSortedTopics s p) = tcpAddress p := rfl

theorem tcpAddress_addRemote (listing : String × ClusterProducer V) (p : ClusterProducer V) :
    tcpAddress (addRemote p listing) = tcpAddress p := rfl

theorem merged_nil : Merged s o [] ⟨[], o.zero, []⟩ where
  nodup := List.nodup_nil
  item _ := rfl
  maxVersion v := by simp

theorem Merged.addProducer (h : Merged s o ls st) (listing : String × ClusterProducer V) :
    Merged s o (ls ++ [listing]) (addProducer s o st listing) where
  nodup := KeyedList.nodup_upsert (tcpAddress_withSortedTopics s _) (tcpAddress_addRemote listing)
    h.nodup
  item k := by
    show KeyedList.item tcpAddress k (upsert tcpAddress (tcpAddress listing.2)
      (withSortedTopics s listing.2) (fun p => addRemote p listing) st.producers) = _
    rw [KeyedList.item_upsert (tcpAddress_withSortedTopics s _) (tcpAddress_addRemote listing), h.item,
      h.item, KeyedList.gathered_concat]
  maxVersion v := by
    show o.lt v (match KeyedList.item tcpAddress (tcpAddress listing.2) st.producers with
        | some _ => st.maxVersion
        | none => if o.lt st.maxVersion listing.2.versionObj then listing.2.versionObj
          else st.maxVersion) = true ↔
      o.lt v o.zero = true ∨ ∃ p ∈ upsert tcpAddress (tcpAddress listing.2)
        (withSortedTopics s listing.2) (fun p => addRemote p listing) st.producers,
          o.lt v p.versionObj = true
    rw [mem_upsert_versions st.producers listing fun u => o.lt v u = true]
    cases hitem : KeyedList.item tcpAddress (tcpAddress listing.2) st.producers with
    | some p => simpa using h.maxVersion v
    | none => simp only [o.lt_max, h.maxVersion, true_and, or_assoc]

theorem Merged.foldl (h : Merged s o ls st) (more : List (String × ClusterProducer V)) :
    Merged s o (ls ++ more) (more.foldl (ClusterInfo.addProducer s o) st) := by
  induction more generalizing ls st with
  | nil => rwa [List.append_nil]
  | cons listing more ih =>
      have hadd := ih (h.addProducer listing)
      rwa [List.append_assoc] at hadd

theorem foldl_addProducer_errs (more : List (String × ClusterProducer V)) (st : Nodes V) :
    (more.foldl (addProducer s o) st).errs = st.errs := by
  induction more generalizing st with
  | nil => rfl
  | cons listing more ih => exact ih _

/-- **The answers** one after another. -/
theorem Merged.responses (h : Merged s o ls st) (responses : List (Response V)) :
    Merged s o (ls ++ listings responses) (responses.foldl (mergeResponse s o) st) ∧
      (responses.foldl (mergeResponse s o) st).errs =
        st.errs ++ responses.flatMap Response.errs := by
  induction responses generalizing ls st with
  | nil => exact ⟨(List.append_nil ls).symm ▸ h, (List.append_nil _).symm⟩
  | cons r responses ih =>
      have hr : Merged s o (ls ++ r.listings) (mergeResponse s o st r) ∧
          (mergeResponse s o st r).errs = st.errs ++ r.errs := by
        rw [mergeResponse, Response.listings, Response.errs]
        cases r.resp with
        | error err =>
            rw [List.append_nil]
            exact ⟨⟨h.nodup, h.item, h.maxVersion⟩, rfl⟩
        | ok ps => exact ⟨h.foldl _, (foldl_addProducer_errs _ st).trans (List.append_nil _).symm⟩
      obtain ⟨hmerged, herrs⟩ := ih hr.1
      rw [List.append_assoc] at hmerged
      rw [hr.2, List.append_assoc] at herrs
      exact ⟨hmerged, herrs⟩

/-- Adding listings changes the remote addresses only. -/
theorem foldl_addRemote (more : List (String × ClusterProducer V)) (p : ClusterProducer V) :
    more.foldl addRemote p =
      { p with remoteAddresses := p.remoteAddresses ++ more.map fun l =>
        s!"{l.1}/{address l.2}" } := by
  induction more generalizing p with
  | nil => rw [List.map_nil, List.append_nil]; rfl
  | cons l more ih =>
      rw [List.foldl_cons, ih, addRemote, List.map_cons, List.append_assoc]
      rfl

theorem listings_unseen {responses : List (Response V)} : ∀ l ∈ listings responses,
    l.2.remoteAddresses = [] ∧ l.2.outOfDate = false := by
  intro l hl
  obtain ⟨r, -, hmem⟩ := List.mem_flatMap.mp hl
  rw [Response.listings] at hmem
  cases hresp : r.resp with
  | error err =>
      rw [hresp] at hmem
      cases hmem
  | ok ps =>
      rw [hresp] at hmem
      obtain ⟨p, hp, rfl⟩ := List.mem_map.mp hmem
      exact r.unseen _ ps hresp p hp

/-- What is kept of a node: its first listing, with where each lookupd sees it. -/
theorem Merged.producer {responses : List (Response V)} (h : Merged s o (listings responses) st)
    {p : ClusterProducer V} (hp : p ∈ st.producers) :
    ∃ l, (listingsAt (tcpAddress p) responses).head? = some l ∧ l ∈ listings responses ∧
      p = { withSortedTopics s l.2 with
        remoteAddresses := (listingsAt (tcpAddress p) responses).map fun l =>
          s!"{l.1}/{address l.2}" } := by
  have hitem := h.item (tcpAddress p)
  rw [(KeyedList.item_eq_some h.nodup).mpr ⟨hp, rfl⟩] at hitem
  obtain ⟨l, hhead, hfold⟩ := KeyedList.gathered_eq_some hitem.symm
  have hmem : l ∈ listings responses := List.mem_of_mem_filter (List.mem_of_head? hhead)
  refine ⟨l, hhead, hmem, ?_⟩
  rw [foldl_addRemote] at hfold
  rw [show (withSortedTopics s l.2).remoteAddresses = [] from (listings_unseen l hmem).1,
    List.nil_append] at hfold
  exact hfold

theorem markOutOfDate_eq (maxVersion : V) (p : ClusterProducer V) :
    markOutOfDate o maxVersion p =
      { p with outOfDate := if o.lt p.versionObj maxVersion then true else p.outOfDate } := by
  rw [markOutOfDate]
  split <;> rfl

/-- The producers, with the old ones marked, in another order. -/
theorem Merged.shown {responses : List (Response V)} (h : Merged s o (listings responses) st) :
    Shown o responses (sortByHost s (st.producers.map (markOutOfDate o st.maxVersion))) := by
  have hps : (sortByHost s (st.producers.map (markOutOfDate o st.maxVersion))).Perm
      (st.producers.map (markOutOfDate o st.maxVersion)) := s.perm _ _
  generalize sortByHost s (st.producers.map (markOutOfDate o st.maxVersion)) = ps at hps ⊢
  have hkey : ∀ p : ClusterProducer V,
      tcpAddress (markOutOfDate o st.maxVersion p) = tcpAddress p := by
    intro p
    rw [markOutOfDate_eq]
    rfl
  have hversion : ∀ p : ClusterProducer V,
      (markOutOfDate o st.maxVersion p).versionObj = p.versionObj := by
    intro p
    rw [markOutOfDate_eq]
  have hkeys : (ps.map tcpAddress).Perm (st.producers.map tcpAddress) := by
    have hmarked := hps.map tcpAddress
    have hcomp : tcpAddress ∘ markOutOfDate o st.maxVersion = tcpAddress := funext hkey
    rwa [List.map_map, hcomp] at hmarked
  have hmem : ∀ p, p ∈ ps ↔ ∃ p₀ ∈ st.producers, markOutOfDate o st.maxVersion p₀ = p := fun p => by
    rw [hps.mem_iff, List.mem_map]
  constructor
  case nodup => exact hkeys.nodup_iff.mpr h.nodup
  case listed =>
    intro k
    have hitem := h.item k
    rw [hkeys.mem_iff, ← not_iff_not, ← KeyedList.item_eq_none, hitem, KeyedList.gathered_eq_none]
    simp
  case remote =>
    intro p hp
    obtain ⟨p₀, hp₀, rfl⟩ := (hmem p).mp hp
    obtain ⟨l, -, -, heq⟩ := h.producer hp₀
    rw [hkey, markOutOfDate_eq]
    exact congrArg ClusterProducer.remoteAddresses heq
  case first =>
    intro p hp
    obtain ⟨p₀, hp₀, rfl⟩ := (hmem p).mp hp
    obtain ⟨l, hhead, -, heq⟩ := h.producer hp₀
    have hfirst := congrArg ClusterProducer.versionObj heq
    rw [hkey, hversion]
    refine ⟨l, hhead, ?_, hfirst⟩
    rw [markOutOfDate_eq]
    show p₀.topics.Perm l.2.topics
    rw [congrArg ClusterProducer.topics heq]
    exact s.perm _ _
  case outOfDate =>
    intro p hp
    obtain ⟨p₀, hp₀, rfl⟩ := (hmem p).mp hp
    obtain ⟨l, -, hl, heq⟩ := h.producer hp₀
    have hfalse : p₀.outOfDate = false :=
      (congrArg ClusterProducer.outOfDate heq).trans (listings_unseen l hl).2
    have hmark : (markOutOfDate o st.maxVersion p₀).outOfDate = true ↔
        o.lt p₀.versionObj st.maxVersion = true := by
      rw [markOutOfDate_eq, hfalse]
      simp
    rw [hmark, h.maxVersion, hversion]
    refine or_congr Iff.rfl ⟨?_, ?_⟩
    · rintro ⟨p', hp', hlt⟩
      exact ⟨_, (hmem _).mpr ⟨p', hp', rfl⟩, (hversion p').symm ▸ hlt⟩
    · rintro ⟨p', hp', hlt⟩
      obtain ⟨p₁, hp₁, rfl⟩ := (hmem p').mp hp'
      exact ⟨p₁, hp₁, hversion p₁ ▸ hlt⟩

end Merge

/-! ### Two orders -/

section Orders

variable {s o} {responses responses' : List (Response V)} {ps ps' : List (ClusterProducer V)}

theorem listings_perm (h : responses.Perm responses') :
    (listings responses).Perm (listings responses') :=
  h.flatMap_right _

theorem listingsAt_perm (h : responses.Perm responses') (k : String) :
    (listingsAt k responses).Perm (listingsAt k responses') :=
  (listings_perm h).filter _

/-- The first listing of a node that is shown. -/
theorem Shown.listing (h : Shown o responses ps) {p : ClusterProducer V} (hp : p ∈ ps) :
    ∃ l ∈ listingsAt (tcpAddress p) responses,
      p.topics.Perm l.2.topics ∧ p.versionObj = l.2.versionObj := by
  obtain ⟨l, hhead, htopics, hversion⟩ := h.first p hp
  exact ⟨l, List.mem_of_head? hhead, htopics, hversion⟩

theorem mem_listingsAt {k : String} {l : String × ClusterProducer V} :
    l ∈ listingsAt k responses ↔ l ∈ listings responses ∧ tcpAddress l.2 = k := by
  rw [listingsAt, List.mem_filter, decide_eq_true_eq]

/-- Where the listings agree on the versions, the highest one is that of all of them. -/
theorem Shown.outOfDate_iff (h : Shown o responses ps) (hsame : SameVersions responses)
    {p : ClusterProducer V} (hp : p ∈ ps) :
    p.outOfDate = true ↔ o.lt p.versionObj o.zero = true ∨
      ∃ l ∈ listings responses, o.lt p.versionObj l.2.versionObj = true := by
  rw [h.outOfDate p hp]
  refine or_congr Iff.rfl ⟨?_, ?_⟩
  · rintro ⟨p', hp', hlt⟩
    obtain ⟨l, hl, -, hversion⟩ := h.listing hp'
    exact ⟨l, (mem_listingsAt.mp hl).1, hversion ▸ hlt⟩
  · rintro ⟨l, hl, hlt⟩
    obtain ⟨p', hp', hkey⟩ := List.mem_map.mp ((h.listed _).mpr ⟨l, hl, rfl⟩)
    obtain ⟨l', hl', -, hversion⟩ := h.listing hp'
    obtain ⟨hl', hkey'⟩ := mem_listingsAt.mp hl'
    exact ⟨p', hp', hversion.trans (hsame l' hl' l hl (hkey'.trans hkey)) ▸ hlt⟩

theorem SameVersions.perm (h : SameVersions responses) (hperm : responses.Perm responses') :
    SameVersions responses' := fun l hl l' hl' =>
  h l ((listings_perm hperm).mem_iff.mpr hl) l' ((listings_perm hperm).mem_iff.mpr hl')

theorem Shown.same (h : Shown o responses ps) (h' : Shown o responses' ps')
    (hperm : responses.Perm responses') : SameNodes o responses ps ps' := by
  have hlistings := listings_perm hperm
  constructor
  case addresses =>
    intro k
    rw [h.listed, h'.listed]
    exact ⟨fun ⟨l, hl, hk⟩ => ⟨l, hlistings.mem_iff.mp hl, hk⟩,
      fun ⟨l, hl, hk⟩ => ⟨l, hlistings.mem_iff.mpr hl, hk⟩⟩
  case remote =>
    intro p hp p' hp' hkey
    rw [h.remote p hp, h'.remote p' hp', ← hkey]
    exact (listingsAt_perm hperm _).map _
  case topics =>
    intro p hp p' hp' hkey hsame
    obtain ⟨l, hl, htopics, -⟩ := h.listing hp
    obtain ⟨l', hl', htopics', -⟩ := h'.listing hp'
    rw [← hkey, ← (listingsAt_perm hperm _).mem_iff] at hl'
    exact htopics.trans ((hsame l hl l' hl').trans htopics'.symm)
  case outOfDate =>
    intro hsame p hp
    refine ⟨h.outOfDate_iff hsame hp, fun p' hp' hkey => ?_⟩
    obtain ⟨l, hl, -, hversion⟩ := h.listing hp
    obtain ⟨l', hl', -, hversion'⟩ := h'.listing hp'
    rw [← hkey, ← (listingsAt_perm hperm _).mem_iff] at hl'
    obtain ⟨hl, hl_key⟩ := mem_listingsAt.mp hl
    obtain ⟨hl', hl_key'⟩ := mem_listingsAt.mp hl'
    have hversions : p.versionObj = p'.versionObj := by
      rw [hversion, hversion', hsame l hl l' hl' (hl_key.trans hl_key'.symm)]
    rw [Bool.eq_iff_iff, h.outOfDate_iff hsame hp, h'.outOfDate_iff (hsame.perm hperm) hp',
      hversions]
    refine or_congr Iff.rfl ⟨?_, ?_⟩
    · rintro ⟨l, hl, hlt⟩
      exact ⟨l, hlistings.mem_iff.mp hl, hlt⟩
    · rintro ⟨l, hl, hlt⟩
      exact ⟨l, hlistings.mem_iff.mpr hl, hlt⟩

end Orders

/-- **The nodes of several lookupds.** Two orders of the same answers fail alike or give the same
nodes, seen at the same places; the topics and the versions are those of the listings that come
first. -/
theorem getLookupdProducers_order (s : Sorting) (o : Versions V)
    (responses responses' : List (Response V))
    (hperm : responses.Perm responses') :
    (∃ errs errs', getLookupdProducers s o responses = .error errs ∧
        getLookupdProducers s o responses' = .error errs' ∧ errs.Perm errs') ∨
      ∃ ps errs ps' errs', getLookupdProducers s o responses = .ok (ps, errs) ∧
        getLookupdProducers s o responses' = .ok (ps', errs') ∧ errs.Perm errs' ∧
          Shown o responses ps ∧ Shown o responses' ps' ∧ SameNodes o responses ps ps' := by
  obtain ⟨hmerged, herrs⟩ := (merged_nil (s := s) (o := o)).responses responses
  obtain ⟨hmerged', herrs'⟩ := (merged_nil (s := s) (o := o)).responses responses'
  have hperms : (responses.foldl (mergeResponse s o) ⟨[], o.zero, []⟩).errs.Perm
      (responses'.foldl (mergeResponse s o) ⟨[], o.zero, []⟩).errs := by
    rw [herrs, herrs']
    exact hperm.flatMap_right _
  rw [getLookupdProducers, getLookupdProducers]
  simp only [← hperms.length_eq, ← hperm.length_eq]
  by_cases hfail : (responses.foldl (mergeResponse s o) ⟨[], o.zero, []⟩).errs.length =
    responses.length
  · rw [if_pos hfail, if_pos hfail]
    exact .inl ⟨_, _, rfl, rfl, hperms⟩
  · rw [if_neg hfail, if_neg hfail]
    exact .inr ⟨_, _, _, _, rfl, rfl, hperms, hmerged.shown, hmerged'.shown,
      hmerged.shown.same hmerged'.shown hperm⟩

/-! ### Two lookupds that disagree -/

def natVersions : Versions ℕ where
  lt u v := decide (u < v)
  zero := 0
  trans huv hvw := decide_eq_true ((of_decide_eq_true huv).trans (of_decide_eq_true hvw))
  between v huw := by
    have huw := of_decide_eq_true huw
    rcases lt_or_ge _ v with huv | hvu
    · exact .inl (decide_eq_true huv)
    · exact .inr (decide_eq_true (hvu.trans_lt huw))

/-- A node with one topic. -/
def orderNode (port : ℤ) (version : ℕ) (tombstoned : Bool) : ClusterProducer ℕ where
  remoteAddresses := []
  remoteAddress := "10.0.0.1:53001"
  hostname := "n"
  broadcastAddress := "n"
  tcpPort := port
  httpPort := port + 1
  version := ""
  versionObj := version
  topics := [⟨"orders", tombstoned⟩]
  outOfDate := false

/-- A lookupd that lists these nodes. -/
def nodesAt (addr : String) (ports : List (ℤ × ℕ × Bool)) : Response ℕ where
  addr := addr
  get _ := .ok (ports.map fun (port, version, tombstoned) => orderNode port version tombstoned)
  unseen := by
    intro _ ps hps p hp
    cases hps
    obtain ⟨_, -, rfl⟩ := List.mem_map.mp hp
    exact ⟨rfl, rfl⟩

/-- It has an old version of the first node. -/
def oldAnswer : Response ℕ := nodesAt "a:4161" [(4150, 1, false)]

/-- In it the first node has the next version, and its topic is tombstoned. -/
def newAnswer : Response ℕ := nodesAt "b:4161" [(4150, 2, true), (5150, 1, false)]

theorem getLookupdProducers_oldAnswer :
    [oldAnswer, newAnswer].Perm [newAnswer, oldAnswer] ∧
      ((∃ errs errs', getLookupdProducers .id natVersions [oldAnswer, newAnswer] = .error errs ∧
          getLookupdProducers .id natVersions [newAnswer, oldAnswer] = .error errs' ∧
            errs.Perm errs') ∨
        ∃ ps errs ps' errs',
          getLookupdProducers .id natVersions [oldAnswer, newAnswer] = .ok (ps, errs) ∧
            getLookupdProducers .id natVersions [newAnswer, oldAnswer] = .ok (ps', errs') ∧
              errs.Perm errs' ∧ Shown natVersions [oldAnswer, newAnswer] ps ∧
                Shown natVersions [newAnswer, oldAnswer] ps' ∧
                  SameNodes natVersions [oldAnswer, newAnswer] ps ps') :=
  ⟨.swap _ _ _, getLookupdProducers_order .id natVersions _ _ (.swap _ _ _)⟩

/-- Whether the topic is tombstoned, and whether the second node is out of date, depends on the
order. -/
theorem answers_disagree :
    ∃ ps ps', getLookupdProducers .id natVersions [oldAnswer, newAnswer] = .ok (ps, []) ∧
      getLookupdProducers .id natVersions [newAnswer, oldAnswer] = .ok (ps', []) ∧
        (∃ p ∈ ps, ∃ p' ∈ ps', tcpAddress p = tcpAddress p' ∧ ¬ p.topics.Perm p'.topics) ∧
          ∃ p ∈ ps, ∃ p' ∈ ps', tcpAddress p = tcpAddress p' ∧ p.outOfDate ≠ p'.outOfDate := by
  refine ⟨_, _, rfl, rfl, ?_, ?_⟩
  · exact ⟨_, List.mem_cons_self, _, List.mem_cons_self, rfl, by decide⟩
  · exact ⟨_, List.mem_cons_of_mem _ List.mem_cons_self, _,
      List.mem_cons_of_mem _ List.mem_cons_self, rfl, by decide⟩

end Xmq.ClusterInfo
