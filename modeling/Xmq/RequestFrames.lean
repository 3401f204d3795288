import Xmq.KeepAlive
import Xmq.RegistrationHistory
import Xmq.RegistrationKeys

/-!
# What a request leaves alone

The HTTP handlers of `xmqlookupd` that take something away name a topic, and look it up with queries
that know a wildcard. `doDeleteChannel` takes only valid names, which the wildcard is not, and
removes the one registration that it names. `doDeleteTopic` and `doTombstoneTopicProducer` take any
string: with the wildcard they reach into all other topics, and with any other string they do not.

The order in which a query visits the database decides which record of a node it returns, so that a
frame is one for every order.
-/

namespace Xmq.Lookupd

open GoMap (RangeOrder)
open XMQLookupd

/-! ### Frames -/

/-- Nothing but registrations of the topic is removed. -/
def DeleteTopicFrame (l : XMQLookupd) (topic : String) : Prop :=
  ∀ (r : RangeOrder) (params : ReqParams) (l' : XMQLookupd), params "topic" = some topic →
    l.doDeleteTopic r (some params) = .ok l' →
    l'.db.producer = l.db.producer ∧ ∀ k : Registration, k.key ≠ topic →
      l'.db.registrationMap.lookup k = l.db.registrationMap.lookup k

/-- Nothing is removed, and no record under another key is changed. -/
def TombstoneFrame (l : XMQLookupd) (topic node : String) (now : ℤ) : Prop :=
  ∀ (r : RangeOrder) (params : ReqParams) (l' : XMQLookupd), params "topic" = some topic →
    params "node" = some node → l.doTombstoneTopicProducer r now (some params) = .ok l' →
    l'.db.registrationMap = l.db.registrationMap ∧ ∀ (k : Registration) id p, k.key ≠ topic →
      (l.db.producersOf k).lookup id = some p → l'.db.producer p = l.db.producer p

/-- Nothing but the registration of the channel is removed. -/
def DeleteChannelFrame (l : XMQLookupd) (topic channel : String) : Prop :=
  ∀ (r : RangeOrder) (params : ReqParams) (l' : XMQLookupd), params "topic" = some topic →
    params "channel" = some channel → l.doDeleteChannel r (some params) = .ok l' →
    l'.db.producer = l.db.producer ∧ ∀ k, k ≠ channelKey topic channel →
      l'.db.registrationMap.lookup k = l.db.registrationMap.lookup k

/-! ### What is removed -/

namespace RegistrationDB

variable {db : RegistrationDB}

theorem removeRegistrations_lookup (ks : List Registration) (db : RegistrationDB) {k : Registration}
    (hk : k ∉ ks) :
    (ks.foldl removeRegistration db).registrationMap.lookup k = db.registrationMap.lookup k := by
  induction ks generalizing db with
  | nil => rfl
  | cons k' ks ih =>
      obtain ⟨hne, hk⟩ := not_or.mp (mt List.mem_cons.mpr hk)
      rw [List.foldl_cons, ih _ hk]
      exact AList.lookup_erase_ne hne

theorem removeRegistrations_producer (ks : List Registration) (db : RegistrationDB) :
    (ks.foldl removeRegistration db).producer = db.producer := by
  induction ks generalizing db with
  | nil => rfl
  | cons k ks ih => exact ih _

/-- A pattern that is not the wildcard matches its own key. -/
theorem key_of_isMatch {k : Registration} {category key subKey : String} (hkey : key ≠ "*")
    (h : k.isMatch category key subKey = true) : k.key = key := by
  simp only [Registration.isMatch, Bool.and_eq_true, Bool.or_eq_true, decide_eq_true_eq] at h
  exact h.1.2.resolve_left hkey

end RegistrationDB

/-- The registrations that `doDeleteTopic` removes. -/
def DeletesKey (topic : String) (k : Registration) : Prop :=
  k.isMatch "channel" topic "*" = true ∨ k.isMatch "topic" topic "" = true

section Deletion

variable {l : XMQLookupd} {topic channel : String}

/-- What `doDeleteTopic` leaves. -/
theorem doDeleteTopic_eq (r : RangeOrder) {params : ReqParams} (h : params "topic" = some topic) :
    ∃ l', l.doDeleteTopic r (some params) = .ok l' ∧ l'.db.producer = l.db.producer ∧
      (∀ k, ¬ DeletesKey topic k →
        l'.db.registrationMap.lookup k = l.db.registrationMap.lookup k) ∧
      ∀ k, DeletesKey topic k → k ∉ l'.db.registrationMap := by
  obtain ⟨db, hdb⟩ : ∃ db, db = (l.db.findRegistrations r "channel" topic "*").foldl
    .removeRegistration l.db := ⟨_, rfl⟩
  have hok : l.doDeleteTopic r (some params) = .ok { l with
      db := (db.findRegistrations r "topic" topic "").foldl .removeRegistration db } := by
    simp only [doDeleteTopic, newReqParams, getParam, h, bind, Except.bind, pure, Except.pure, hdb]
  refine ⟨_, hok, ?_, fun k hk => ?_, fun k hk => ?_⟩
  · rw [RegistrationDB.removeRegistrations_producer, hdb,
      RegistrationDB.removeRegistrations_producer]
  · have htopic : k ∉ db.findRegistrations r "topic" topic "" := fun hmem =>
      hk (.inr ((RegistrationDB.mem_findRegistrations r).mp hmem).2)
    have hchannel : k ∉ l.db.findRegistrations r "channel" topic "*" := fun hmem =>
      hk (.inl ((RegistrationDB.mem_findRegistrations r).mp hmem).2)
    rw [RegistrationDB.removeRegistrations_lookup _ _ htopic, hdb,
      RegistrationDB.removeRegistrations_lookup _ _ hchannel]
  · intro hmem
    obtain ⟨htopic, hmem⟩ := RegistrationDB.removeRegistrations_registered.mp hmem
    rcases hk with hk | hk
    · rw [hdb] at hmem
      obtain ⟨hchannel, hmem⟩ := RegistrationDB.removeRegistrations_registered.mp hmem
      exact hchannel ((RegistrationDB.mem_findRegistrations r).mpr
        ⟨AList.lookup_isSome.mpr hmem, hk⟩)
    · exact htopic ((RegistrationDB.mem_findRegistrations r).mpr
        ⟨AList.lookup_isSome.mpr hmem, hk⟩)

/-- A name that is not the wildcard is the key of what it matches. -/
theorem key_of_deletesKey {k : Registration} (htopic : topic ≠ "*") (h : DeletesKey topic k) :
    k.key = topic :=
  h.elim (RegistrationDB.key_of_isMatch htopic) (RegistrationDB.key_of_isMatch htopic)

theorem deleteTopicFrame_iff (l : XMQLookupd) (topic : String) :
    DeleteTopicFrame l topic ↔
      (topic = "*" → ∀ k ∈ l.db.registrationMap, DeletesKey "*" k → k.key = "*") := by
  constructor
  · rintro hframe rfl k hk hdeletes
    by_contra hkey
    obtain ⟨params, hparams⟩ : ∃ params : ReqParams, params "topic" = some "*" :=
      ⟨fun _ => some "*", rfl⟩
    obtain ⟨l', hok, -, -, hgone⟩ := doDeleteTopic_eq (l := l) RangeOrder.id hparams
    have hsame := (hframe RangeOrder.id params l' hparams hok).2 k hkey
    rw [← AList.lookup_isSome, ← hsame, AList.lookup_isSome] at hk
    exact hgone k hdeletes hk
  · intro hcond r params l' hparams h
    obtain ⟨l'', hok, hproducer, hkept, hgone⟩ := doDeleteTopic_eq (l := l) r hparams
    rw [hok] at h
    cases h
    refine ⟨hproducer, fun k hkey => ?_⟩
    by_cases hdeletes : DeletesKey topic k
    · by_cases htopic : topic = "*"
      · rw [htopic] at hdeletes hkey
        by_cases hk : k ∈ l.db.registrationMap
        · exact absurd (hcond htopic k hk hdeletes) hkey
        · rw [AList.lookup_eq_none.mpr hk]
          exact AList.lookup_eq_none.mpr (hgone k (htopic ▸ hdeletes))
      · exact absurd (key_of_deletesKey htopic hdeletes) hkey
    · exact hkept k hdeletes

theorem valid_of_getTopicChannelArgs {params : ReqParams} {args : String × String}
    (htopic : params "topic" = some topic) (hchannel : params "channel" = some channel)
    (h : getTopicChannelArgs params = .ok args) :
    args = (topic, channel) ∧ isValidTopicName topic = true ∧
      isValidChannelName channel = true := by
  unfold getTopicChannelArgs getParam at h
  rw [htopic, hchannel] at h
  simp only [bind, Except.bind] at h
  cases hvalid : isValidTopicName topic with
  | false =>
      rw [hvalid] at h
      cases h
  | true =>
      cases hvalid' : isValidChannelName channel with
      | false =>
          rw [hvalid, hvalid'] at h
          cases h
      | true =>
          rw [hvalid, hvalid'] at h
          cases h
          exact ⟨rfl, rfl, rfl⟩

/-- Names that are valid are no wildcards. -/
theorem needFilter_of_valid (htopic : isValidTopicName topic = true)
    (hchannel : isValidChannelName channel = true) : needFilter topic channel = false := by
  have hstar : isValidTopicName "*" = false := by decide
  have hstar' : isValidChannelName "*" = false := by decide
  have htopic' : topic ≠ "*" := by
    rintro rfl
    exact absurd (hstar.symm.trans htopic) (by decide)
  have hchannel' : channel ≠ "*" := by
    rintro rfl
    exact absurd (hstar'.symm.trans hchannel) (by decide)
  simp [needFilter, htopic', hchannel']

theorem deleteChannelFrame (l : XMQLookupd) (topic channel : String) :
    DeleteChannelFrame l topic channel := by
  intro r params l' htopic hchannel h
  unfold doDeleteChannel newReqParams at h
  simp only [bind, Except.bind] at h
  cases hargs : getTopicChannelArgs params with
  | error e =>
      rw [hargs] at h
      cases h
  | ok args =>
      obtain ⟨rfl, hvalid, hvalid'⟩ := valid_of_getTopicChannelArgs htopic hchannel hargs
      rw [hargs] at h
      simp only at h
      split at h
      · cases h
      · cases h
        refine ⟨RegistrationDB.removeRegistrations_producer _ _, fun k hk => ?_⟩
        refine RegistrationDB.removeRegistrations_lookup _ _ fun hmem => hk ?_
        have hmatch := ((RegistrationDB.mem_findRegistrations r).mp hmem).2
        exact (RegistrationDB.isMatch_direct (needFilter_of_valid hvalid hvalid')).mp hmatch

end Deletion

/-! ### What is tombstoned -/

theorem tombstone_tombstone (p : Producer) (now : ℤ) :
    (p.tombstone now).tombstone now = p.tombstone now := rfl

theorem nodeName_tombstone (p : Producer) (now : ℤ) : nodeName (p.tombstone now) = nodeName p := rfl

/-- The records in the list that name the node are tombstoned, and no others. -/
theorem tombstoneAll_producer (now : ℤ) (node : String) (ps : List ProducerPtr)
    (db : RegistrationDB) (p : ProducerPtr) : (tombstoneAll now node db ps).producer p =
      if p ∈ ps ∧ nodeName (db.producer p) = node then (db.producer p).tombstone now
      else db.producer p := by
  induction ps generalizing db with
  | nil => rw [if_neg fun h => absurd h.1 List.not_mem_nil]; rfl
  | cons q ps ih =>
      have hcons : tombstoneAll now node db (q :: ps) = tombstoneAll now node
          (if nodeName (db.producer q) = node then db.update q fun o => o.tombstone now else db)
          ps := rfl
      rw [hcons]
      by_cases hq : nodeName (db.producer q) = node
      · rw [if_pos hq, ih]
        by_cases hpq : p = q
        · subst hpq
          rw [RegistrationDB.update_self, nodeName_tombstone, tombstone_tombstone, ite_self,
            if_pos ⟨List.mem_cons_self, hq⟩]
        · rw [RegistrationDB.update_ne _ hpq]
          simp only [List.mem_cons, hpq, false_or]
      · rw [if_neg hq, ih]
        by_cases hpq : p = q
        · subst hpq
          rw [if_neg fun h => hq h.2, if_neg fun h => hq h.2]
        · simp only [List.mem_cons, hpq, false_or]

/-- A record of the node under a key that the query visits, which a registration of another key
holds as well. -/
def TombstonesOther (l : XMQLookupd) (topic node : String) (now : ℤ) : Prop :=
  ∃ (k k' : Registration) (id id' : String) (p : ProducerPtr),
    k.isMatch "topic" topic "" = true ∧ (l.db.producersOf k).lookup id = some p ∧
    k'.key ≠ topic ∧ (l.db.producersOf k').lookup id' = some p ∧
    nodeName (l.db.producer p) = node ∧ (l.db.producer p).tombstone now ≠ l.db.producer p

namespace RegistrationDB

variable {db : RegistrationDB}

/-- Some order visits a given entry first. -/
theorem exists_order_front {α : Type} (a : α) :
    ∃ r : RangeOrder, ∀ m : List α, a ∈ m → m.Nodup → ∃ m', r.order m = a :: m' := by
  classical
  refine ⟨⟨fun m => m.filter (fun b => HEq b a) ++ m.filter fun b => !decide (HEq b a),
    fun m => List.filter_append_perm _ m⟩, fun m ha hm => ?_⟩
  have hfront : (m.filter fun b => HEq b a) = [a] := by
    simp only [heq_eq_eq]
    rw [List.filter_eq, List.count_eq_one_of_mem hm ha, List.replicate_one]
  exact ⟨_, congrArg (· ++ m.filter fun b => !decide (HEq b a)) hfront⟩

/-- Records with IDs of their own at the front of the list are all found. -/
theorem mem_firstOfEach_append (ps qs : List ProducerPtr) (seen : List String)
    (hnodup : (ps.map db.idOf).Nodup) (hseen : ∀ p ∈ ps, db.idOf p ∉ seen) {p : ProducerPtr}
    (hp : p ∈ ps) : p ∈ db.firstOfEach (ps ++ qs) seen := by
  induction ps generalizing seen with
  | nil => cases hp
  | cons q ps ih =>
      rw [List.map_cons, List.nodup_cons] at hnodup
      obtain ⟨hq, hps⟩ := List.forall_mem_cons.mp hseen
      rw [List.cons_append, firstOfEach_cons, if_neg hq]
      rcases List.mem_cons.mp hp with rfl | hp
      · exact List.mem_cons_self
      · refine List.mem_cons_of_mem _ (ih _ hnodup.2 (fun o ho hid => ?_) hp)
        rcases List.mem_cons.mp hid with hoq | hid
        · exact hnodup.1 (hoq ▸ List.mem_map_of_mem ho)
        · exact hps o ho hid

/-- Any record under a registration that matches is found in some order. -/
theorem exists_mem_findProducers (hfiled : db.Filed) {k : Registration} {id : String}
    {p : ProducerPtr} {category key subKey : String} (hk : k.isMatch category key subKey = true)
    (h : (db.producersOf k).lookup id = some p) :
    ∃ r : RangeOrder, p ∈ db.findProducers r category key subKey := by
  have hmem : k ∈ db.registrationMap := registered_of_mem (mem_producersOf.mpr ⟨p, h⟩)
  obtain ⟨producers, hlook⟩ := Option.isSome_iff_exists.mp (AList.lookup_isSome.mpr hmem)
  obtain ⟨r, hr⟩ := exists_order_front (⟨k, producers⟩ : Σ _ : Registration, ProducerMap)
  obtain ⟨m, hm⟩ := hr db.registrationMap.entries (AList.mem_lookup_iff.mp hlook)
    db.registrationMap.nodupKeys.nodup
  have hall : db.findProducers r category key subKey =
      db.filterProducers r category key subKey := by
    by_cases hneed : needFilter key subKey = false
    · exact findProducers_direct r hfiled hneed
    · rw [findProducers, if_neg hneed]
      rfl
  refine ⟨r, ?_⟩
  rw [hall, filterProducers, hm, List.filter_cons, if_pos hk, List.flatMap_cons,
    ← producersOf_lookup hlook]
  refine mem_firstOfEach_append _ _ [] ?_ (fun _ _ => List.not_mem_nil) ?_
  · exact (map_values_order r hfiled k).nodup_iff.mpr (db.producersOf k).nodupKeys
  · exact r.mem_order.mpr (GoMap.mem_values.mpr ⟨id, h⟩)

end RegistrationDB

theorem doTombstoneTopicProducer_eq {l : XMQLookupd} (r : RangeOrder) (now : ℤ) {params : ReqParams}
    {topic node : String} (htopic : params "topic" = some topic)
    (hnode : params "node" = some node) : l.doTombstoneTopicProducer r now (some params) =
      .ok { l with db := tombstoneAll now node l.db (l.db.findProducers r "topic" topic "") } := by
  simp only [doTombstoneTopicProducer, newReqParams, getParam, htopic, hnode, bind, Except.bind,
    pure, Except.pure]

theorem tombstoneFrame_iff {l : XMQLookupd} (hfiled : l.db.Filed) (topic node : String) (now : ℤ) :
    TombstoneFrame l topic node now ↔ ¬ TombstonesOther l topic node now := by
  constructor
  · rintro hframe ⟨k, k', id, id', p, hk, hp, hkey, hp', hnode, hchanged⟩
    obtain ⟨r, hfound⟩ := RegistrationDB.exists_mem_findProducers hfiled hk hp
    obtain ⟨params, htopic, hparam⟩ : ∃ params : ReqParams, params "topic" = some topic ∧
        params "node" = some node :=
      ⟨fun name => if name = "topic" then some topic else some node, rfl, rfl⟩
    have hsame := (hframe r params _ htopic hparam
      (doTombstoneTopicProducer_eq r now htopic hparam)).2 k' id' p hkey hp'
    rw [tombstoneAll_producer, if_pos ⟨hfound, hnode⟩] at hsame
    exact hchanged hsame
  · intro hnone r params l' htopic hparam h
    rw [doTombstoneTopicProducer_eq r now htopic hparam] at h
    cases h
    refine ⟨tombstoneAll_registrationMap now node _ l.db, fun k' id' p hkey hp' => ?_⟩
    rw [tombstoneAll_producer]
    split
    · rename_i hfound
      obtain ⟨k, id, hk, hp⟩ := RegistrationDB.lookup_of_mem_findProducers r hfound.1
      by_contra hchanged
      exact hnone ⟨k, k', id, id', p, hk, hp, hkey, hp', hfound.2, hchanged⟩
    · rfl

/-- In a run of the daemon every registration has records of its own, so that a tombstone request
with another string than the wildcard leaves the other keys alone. -/
theorem tombstoneFrame_serveAll (opts : Options) (es : List Event) {topic : String}
    (htopic : topic ≠ "*") (node : String) (now : ℤ) :
    TombstoneFrame (serveAll opts es) topic node now := by
  have htables : Tables es (serveAll opts es) := tables_serveAll es
  have hrecords := htables.records
  have hfiled : (serveAll opts es).db.Filed := fun k id p hp => (hrecords.first k id p hp).1
  rw [tombstoneFrame_iff hfiled]
  rintro ⟨k, k', id, id', p, hk, hp, hkey, hp', -⟩
  rw [← hrecords.unique k k' id id' p hp hp'] at hkey
  exact hkey (RegistrationDB.key_of_isMatch htopic hk)

/-! ### The three handlers -/

/-- The daemon with the database after the operations. -/
def withDB (producer : ProducerPtr → Producer) (ops : List DBOp)
    (peers : GoMap String Lookup.PeerInfo) (next : ProducerPtr) : XMQLookupd :=
  ⟨peers, RegistrationDB.after producer ops, next⟩

theorem filed_after (producer : ProducerPtr → Producer) (ops : List DBOp) :
    (RegistrationDB.after producer ops).Filed := by
  intro k id p h
  rw [RegistrationDB.idOf, RegistrationDB.after_producer]
  exact RegistrationDB.id_of_lookup_after h

/-- **Frames of the requests that take away.** Deleting a channel removes nothing else. Deleting a
topic removes nothing else unless its name is the wildcard and another topic or channel is there. A
tombstone marks no record of another key unless the query finds one. -/
theorem request_frames (producer : ProducerPtr → Producer) (ops : List DBOp)
    (peers : GoMap String Lookup.PeerInfo) (next : ProducerPtr) (topic : String) :
    (DeleteTopicFrame (withDB producer ops peers next) topic ↔
      (topic = "*" → ∀ k ∈ (withDB producer ops peers next).db.registrationMap,
        DeletesKey "*" k → k.key = "*")) ∧
    (∀ node now, TombstoneFrame (withDB producer ops peers next) topic node now ↔
      ¬ TombstonesOther (withDB producer ops peers next) topic node now) ∧
    ∀ channel, DeleteChannelFrame (withDB producer ops peers next) topic channel :=
  ⟨deleteTopicFrame_iff _ topic,
    fun node now => tombstoneFrame_iff (filed_after producer ops) topic node now,
    fun channel => deleteChannelFrame _ topic channel⟩

/-- With one topic in the database, `DELETE_TOPIC` of the wildcard removes it, and a tombstone of
the wildcard marks its producer. -/
theorem not_request_frames :
    ¬ DeleteTopicFrame (withDB RegistrationDB.new.producer
      [.addProducer (topicKey "orders") 0] ∅ 1) "*" ∧
    ¬ TombstoneFrame (withDB RegistrationDB.new.producer
      [.addProducer (topicKey "orders") 0] ∅ 1) "*" ":0" 0 := by
  constructor
  · rw [deleteTopicFrame_iff]
    intro h
    have hkey := h rfl (topicKey "orders") (by decide) (.inr (by decide))
    exact absurd hkey (by decide)
  · rw [tombstoneFrame_iff (filed_after _ _), not_not]
    exact ⟨topicKey "orders", topicKey "orders", "", "", 0, by decide, by decide,
      by decide, by decide, by decide, by decide⟩

end Xmq.Lookupd
