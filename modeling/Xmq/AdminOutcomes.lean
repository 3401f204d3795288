import Xmq.AdminServer

/-!
# What an administrator is answered

The handlers that change the cluster check a request, carry out one command, and answer with its error.
While the options stand still, what such a handler does and answers depends on nothing but the request,
the options, and the error of the command.

* Nothing is asked or told for a request that is not authorized, or whose body or names are refused.
* What the lookupds and the nodes have refused is a warning; only a failed search is an error.
* A failed search keeps a command from being reported, but not an action.
-/

namespace Xmq.Admin

open Gather Runs
open ClusterInfo (QueryErr Command Carried Plan errListText)
open Lookupd (Semver HTTPErr)

variable {semver : Semver} {α β : Type}

/-! ### What a handler has done -/

/-- The requests to the cluster. -/
def upstreamEvents (log : List (Event (Reply semver))) : List (Event (ClusterInfo.Reply semver)) :=
  log.filterMap fun
    | ⟨.cluster op, r⟩ => some ⟨op, r⟩
    | _ => none

/-- What a report is about. -/
structure Report where
  action : String
  topic : String
  channel : String
  node : String
  deriving DecidableEq

def reports (log : List (Event (Reply semver))) : List Report :=
  log.filterMap fun
    | ⟨.notify a, _⟩ => some ⟨a.action, a.topic, a.channel, a.node⟩
    | _ => none

/-- The options that are read are these. -/
def Reads (opts : Options) : Event (Reply semver) → Prop
  | ⟨.getOpts, opts'⟩ => opts' = opts
  | _ => True

/-- What a part of a handler comes to while the options stand still. -/
def Part (opts : Options) (p : Handler semver α)
    (R : List (Event (ClusterInfo.Reply semver)) → List Report → α → Prop) : Prop :=
  p.Ends fun es a => (∀ e ∈ es, Reads opts e) → R (upstreamEvents es) (reports es) a

section Parts

variable {opts : Options} {R : List (Event (ClusterInfo.Reply semver)) → List Report → β → Prop}

theorem upstreamEvents_append (es es' : List (Event (Reply semver))) :
    upstreamEvents (es ++ es') = upstreamEvents es ++ upstreamEvents es' := List.filterMap_append

theorem reports_append (es es' : List (Event (Reply semver))) :
    reports (es ++ es') = reports es ++ reports es' := List.filterMap_append

theorem Part.bind {p : Handler semver α} {f : α → Handler semver β}
    (h : Part opts p fun us rs a => Part opts (f a) fun us' rs' b => R (us ++ us') (rs ++ rs') b) :
    Part opts (p >>= f) R := by
  refine Prog.Ends.bind (Prog.Ends.mono h fun es a h => ?_)
  by_cases hes : ∀ e ∈ es, Reads opts e
  · refine (h hes).mono fun es' b h hall => ?_
    rw [upstreamEvents_append, reports_append]
    exact h fun e he => hall e (List.mem_append_right _ he)
  · exact (f a).ends_of_forall fun es' b hall =>
      absurd (fun e he => hall e (List.mem_append_left _ he)) hes

theorem part_pure {b : β} (h : R [] [] b) : Part opts (pure b : Handler semver β) R :=
  ends_pure fun _ => h

/-- The options are read. -/
theorem part_getOpts {f : Options → Handler semver β} (h : Part opts (f opts) R) :
    Part opts (getOpts semver >>= f) R := by
  refine Part.bind fun opts' hes => ?_
  obtain rfl : opts' = opts := hes _ List.mem_cons_self
  exact h

theorem part_lookupdAddresses {f : List String → Handler semver β}
    (h : ∀ lookupds, Part opts (f lookupds) R) : Part opts (lookupdAddresses semver >>= f) R :=
  Part.bind (part_getOpts fun lookupds _ => h lookupds)

theorem events_of_lifts {es' : List (Event (Reply semver))} {es : List (Event (ClusterInfo.Reply semver))}
    (h : List.Forall₂ (Lifts Op.cluster fun _ r => r) es' es) :
    upstreamEvents es' = es ∧ reports es' = [] := by
  induction h with
  | nil => exact ⟨rfl, rfl⟩
  | @cons e' e l' l hlift _ ih =>
      obtain ⟨r, rfl, hr⟩ := hlift
      exact ⟨congrArg₂ List.cons (Sigma.ext rfl (heq_of_eq hr.symm)) ih.1, ih.2⟩

/-- What the cluster is asked and told. -/
theorem part_upstream {p : Prog (ClusterInfo.Reply semver) α} {f : α → Handler semver β}
    {P : List (Event (ClusterInfo.Reply semver)) → α → Prop} (hp : p.Ends P)
    (h : ∀ es a, P es a → Part opts (f a) fun us rs b => R (es ++ us) rs b) :
    Part opts (upstream p >>= f) R := by
  refine Part.bind ((hp.lift Op.cluster fun _ r => r).mono fun es' a hes' _ => ?_)
  obtain ⟨es, hP, hes⟩ := hes'
  have hevents := events_of_lifts hes
  rw [hevents.1, hevents.2]
  exact h es a hP

/-- The reports of a handler, as long as there is an endpoint for them. -/
def reported (opts : Options) (rs : List Report) : List Report :=
  if opts.notificationHTTPEndpoint = "" then [] else rs

theorem part_notify {req : Request} {action topic channel node : String}
    {R : List (Event (ClusterInfo.Reply semver)) → List Report → Unit → Prop}
    (h : R [] (reported opts [⟨action, topic, channel, node⟩]) ()) :
    Part opts (notifyAdminAction semver action topic channel node req) R := by
  refine part_getOpts ?_
  unfold reported at h
  split
  · rename_i hnone
    rw [if_pos hnone] at h
    exact part_pure h
  · rename_i hsome
    rw [if_neg hsome] at h
    exact fun via timestamp u _ => h

theorem reported_append (opts : Options) (rs rs' : List Report) :
    reported opts rs ++ reported opts rs' = reported opts (rs ++ rs') := by
  unfold reported
  split <;> rfl

theorem reported_nil (opts : Options) : reported opts [] = [] := by
  unfold reported
  split <;> rfl

/-- The check of a handler. -/
theorem part_authorized {req : Request} {f : Bool → Handler semver β}
    (hyes : Authorized opts.adminUsers opts.aclHTTPHeader req → Part opts (f true) R)
    (hno : ¬ Authorized opts.adminUsers opts.aclHTTPHeader req → Part opts (f false) R) :
    Part opts (isAuthorizedAdminRequest semver req >>= f) R := by
  show Part opts (getOpts semver >>= fun opts =>
    (if opts.adminUsers.length = 0 then pure true
    else getOpts semver >>= fun opts' =>
      pure (opts.adminUsers.any fun v => v = req.header opts'.aclHTTPHeader)) >>= f) R
  refine part_getOpts ?_
  by_cases hlen : opts.adminUsers.length = 0
  · simp only [if_pos hlen]
    exact hyes (.inl (List.length_eq_zero_iff.mp hlen))
  · simp only [if_neg hlen]
    show Part opts (getOpts semver >>= fun opts' =>
      f (opts.adminUsers.any fun v => v = req.header opts'.aclHTTPHeader)) R
    refine part_getOpts ?_
    have hany : (opts.adminUsers.any fun v => v = req.header opts.aclHTTPHeader) = true ↔
        Authorized opts.adminUsers opts.aclHTTPHeader req := by
      simp only [List.any_eq_true, decide_eq_true_eq, exists_eq_right, Authorized]
      exact ⟨.inr, fun h => h.resolve_left fun hnil => hlen (by rw [hnil]; rfl)⟩
    cases hb : opts.adminUsers.any fun v => v = req.header opts.aclHTTPHeader with
    | true => exact hyes (hany.mp hb)
    | false => exact hno fun h => Bool.false_ne_true (hb.symm.trans (hany.mpr h))

/-- What a handler answers with the error of its command. -/
def answerOf (err : Option QueryErr) : Response :=
  (messagesOf err).map fun messages => .message (maybeWarnMsg messages)

/-- The search of a command has failed. -/
def searchFailed : Option QueryErr → Bool
  | none => false
  | some (.errList _) => false
  | some (.errorf _) => true

theorem part_respond (err : Option QueryErr) {before : Handler semver Unit} {rs : List Report}
    {R : List (Event (ClusterInfo.Reply semver)) → List Report → Response → Prop}
    (hbefore : Part opts before fun us rs' _ => us = [] ∧ rs' = rs)
    (hfailed : searchFailed err = true → R [] [] (answerOf err)) (hsent : searchFailed err = false → R [] rs (answerOf err)) :
    Part opts (respond err before) R := by
  have hanswer : ∀ messages, messagesOf err = .ok messages → searchFailed err = false →
      Part opts (do before; pure (.ok (.message (maybeWarnMsg messages)))) R := by
    intro messages hmessages herr
    have h := hsent herr
    rw [answerOf, hmessages] at h
    refine Part.bind (Prog.Ends.mono hbefore fun es _ hes hall => ?_)
    obtain ⟨hus, hrs⟩ := hes hall
    rw [hus, hrs]
    refine part_pure ?_
    rw [List.append_nil, List.append_nil]
    exact h
  unfold respond
  cases err with
  | none => exact hanswer [] rfl rfl
  | some e =>
      cases e with
      | errList errs => exact hanswer _ rfl rfl
      | errorf text => exact part_pure (hfailed rfl)

end Parts

/-! ### What a request asks for -/

/-- A command, and the reports of it. -/
structure Wanted where
  command : Command
  reports : List Report
  /-- It is reported whatever comes of it. -/
  always : Bool

/-- What a request for an action is for, after its checks. -/
def wantedAction (dec : Decoders) (req : Request) (topic channel : String) : Except HTTPErr Wanted :=
  match dec.actionBody req.body with
  | .error err => .error ⟨400, err⟩
  | .ok action =>
    match actionOf action topic channel with
    | none => .error ⟨400, "INVALID_ACTION"⟩
    | some (command, name) => .ok ⟨command, [⟨name, topic, channel, ""⟩], true⟩

/-- What a request is for, after its checks; none for a request that changes no cluster. -/
def wanted (dec : Decoders) (req : Request) : Option (Except HTTPErr Wanted) :=
  match req.route with
  | .topics => none
  | .config _ _ => none
  | .createTopicChannel => some <|
    match dec.createBody req.body with
    | .error err => .error ⟨400, err⟩
    | .ok (topic, channel) =>
      if isValidTopicName topic = false then .error ⟨400, "INVALID_TOPIC"⟩
      else if channel.length > 0 ∧ isValidChannelName channel = false then
        .error ⟨400, "INVALID_CHANNEL"⟩
      else .ok ⟨.createTopicChannel topic channel, ⟨"create_topic", topic, "", ""⟩ ::
        if channel.length > 0 then [⟨"create_channel", topic, channel, ""⟩] else [], false⟩
  | .tombstoneNodeForTopic node => some <|
    match dec.topicBody req.body with
    | .error _ => .error ⟨400, "INVALID_BODY"⟩
    | .ok topic =>
      if isValidTopicName topic = false then .error ⟨400, "INVALID_TOPIC"⟩
      else .ok ⟨.tombstoneNodeForTopic topic node, [⟨"tombstone_topic_producer", topic, "", node⟩], false⟩
  | .deleteTopic topic => some (.ok ⟨.deleteTopic topic, [⟨"delete_topic", topic, "", ""⟩], false⟩)
  | .deleteChannel topic channel =>
    some (.ok ⟨.deleteChannel topic channel, [⟨"delete_channel", topic, channel, ""⟩], false⟩)
  | .topicAction topic => some (wantedAction dec req topic "")
  | .channelAction topic channel => some (wantedAction dec req topic channel)

/-- **What comes of a request.** -/
inductive Served (opts : Options) (req : Request) (w : Except HTTPErr Wanted) :
    List (Event (ClusterInfo.Reply semver)) → List Report → Response → Prop
  | forbidden (hno : ¬ Authorized opts.adminUsers opts.aclHTTPHeader req) :
      Served opts req w [] [] (.error ⟨403, "FORBIDDEN"⟩)
  | refused {e} (hyes : Authorized opts.adminUsers opts.aclHTTPHeader req) (hw : w = .error e) :
      Served opts req w [] [] (.error e)
  | carried {wd lookupds log err} (hyes : Authorized opts.adminUsers opts.aclHTTPHeader req)
      (hw : w = .ok wd)
      (hcarried : Carried lookupds (wd.command.plan lookupds opts.xmqdHTTPAddresses) log err) :
      Served opts req w log
        (if wd.always = false ∧ searchFailed err = true then [] else reported opts wd.reports)
        (answerOf err)

section Handlers

variable {opts : Options} {req : Request} (dec : Decoders)

/-- A handler that answers with an error after it has checked the user. -/
theorem part_refused {w : Except HTTPErr Wanted} {e : HTTPErr}
    (hyes : Authorized opts.adminUsers opts.aclHTTPHeader req) (hw : w = .error e) :
    Part opts (pure (.error e) : Handler semver Response) (Served opts req w) :=
  part_pure (.refused hyes hw)

/-- The end of a handler that reports what it has done unless its search has failed. -/
theorem part_command {w : Except HTTPErr Wanted} {wd : Wanted} {lookupds : List String}
    (hyes : Authorized opts.adminUsers opts.aclHTTPHeader req) (hw : w = .ok wd)
    (halways : wd.always = false) {before : Handler semver Unit}
    (hbefore : Part opts before fun us rs _ => us = [] ∧ rs = reported opts wd.reports)
    {p : Prog (ClusterInfo.Reply semver) (Option QueryErr)}
    (hp : p.Ends (Carried lookupds (wd.command.plan lookupds opts.xmqdHTTPAddresses))) :
    Part opts (upstream p >>= fun err => respond err before) (Served opts req w) := by
  refine part_upstream hp fun es err hes => ?_
  have hserved : Served opts req w es _ _ := .carried hyes hw hes
  refine part_respond err hbefore (fun hfailed => ?_) fun hsent => ?_
  · rw [if_pos ⟨halways, hfailed⟩] at hserved
    rwa [List.append_nil]
  · rw [if_neg (by simp [hsent])] at hserved
    rwa [List.append_nil]

theorem part_notified {action topic channel node : String} {rs : List Report}
    (hrs : rs = [⟨action, topic, channel, node⟩]) :
    Part opts (notifyAdminAction semver action topic channel node req) fun us rs' _ =>
      us = [] ∧ rs' = reported opts rs := by
  subst hrs
  exact part_notify ⟨rfl, rfl⟩

theorem deleteTopic_served (topic : String) {w : Except HTTPErr Wanted}
    (hw : w = .ok ⟨.deleteTopic topic, [⟨"delete_topic", topic, "", ""⟩], false⟩) :
    Part opts (deleteTopicHandler semver topic req) (Served opts req w) := by
  refine part_authorized (fun hyes => ?_) fun hno => part_pure (.forbidden hno)
  refine part_lookupdAddresses fun lookupds => part_getOpts ?_
  exact part_command hyes hw rfl (part_notified rfl) (ClusterInfo.deleteTopic_ends topic lookupds _)

theorem deleteChannel_served (topic channel : String) {w : Except HTTPErr Wanted}
    (hw : w = .ok ⟨.deleteChannel topic channel, [⟨"delete_channel", topic, channel, ""⟩], false⟩) :
    Part opts (deleteChannelHandler semver topic channel req) (Served opts req w) := by
  refine part_authorized (fun hyes => ?_) fun hno => part_pure (.forbidden hno)
  refine part_lookupdAddresses fun lookupds => part_getOpts ?_
  exact part_command hyes hw rfl (part_notified rfl)
    (ClusterInfo.deleteChannel_ends topic channel lookupds _)

theorem tombstoneNodeForTopic_served (node : String) {w : Except HTTPErr Wanted}
    (hreq : req.route = .tombstoneNodeForTopic node) (hw : wanted dec req = some w) :
    Part opts (tombstoneNodeForTopicHandler semver dec node req) (Served opts req w) := by
  simp only [wanted, hreq, Option.some.injEq] at hw
  refine part_authorized (fun hyes => ?_) fun hno => part_pure (.forbidden hno)
  simp only [Bool.not_true, Bool.false_eq_true, if_false]
  cases hbody : dec.topicBody req.body with
  | error err =>
      rw [hbody] at hw
      exact part_refused hyes hw.symm
  | ok topic =>
      simp only [hbody] at hw
      by_cases hvalid : isValidTopicName topic = false
      · rw [if_pos hvalid] at hw
        simp only [if_pos hvalid]
        exact part_refused hyes hw.symm
      · rw [if_neg hvalid] at hw
        simp only [if_neg hvalid]
        refine part_lookupdAddresses fun lookupds => ?_
        exact part_command hyes hw.symm rfl (part_notified rfl)
          (ClusterInfo.tombstoneNodeForTopic_ends topic node lookupds _)

/-- One report, or two. -/
theorem part_created {topic channel : String} :
    Part opts (do
      notifyAdminAction semver "create_topic" topic "" "" req
      if channel.length > 0 then notifyAdminAction semver "create_channel" topic channel "" req
      else pure ()) fun us rs _ => us = [] ∧ rs = reported opts (⟨"create_topic", topic, "", ""⟩ ::
        if channel.length > 0 then [⟨"create_channel", topic, channel, ""⟩] else []) := by
  refine Part.bind (part_notify ?_)
  by_cases hc : channel.length > 0
  · simp only [if_pos hc]
    refine part_notify ⟨rfl, ?_⟩
    rw [reported_append]
    rfl
  · simp only [if_neg hc]
    refine part_pure ⟨rfl, ?_⟩
    rw [List.append_nil]

theorem createTopicChannel_served {w : Except HTTPErr Wanted} (hreq : req.route = .createTopicChannel)
    (hw : wanted dec req = some w) :
    Part opts (createTopicChannelHandler semver dec req) (Served opts req w) := by
  simp only [wanted, hreq, Option.some.injEq] at hw
  refine part_authorized (fun hyes => ?_) fun hno => part_pure (.forbidden hno)
  simp only [Bool.not_true, Bool.false_eq_true, if_false]
  cases hbody : dec.createBody req.body with
  | error err =>
      rw [hbody] at hw
      exact part_refused hyes hw.symm
  | ok body =>
      obtain ⟨topic, channel⟩ := body
      simp only [hbody] at hw
      by_cases htopic : isValidTopicName topic = false
      · rw [if_pos htopic] at hw
        simp only [if_pos htopic]
        exact part_refused hyes hw.symm
      · rw [if_neg htopic] at hw
        simp only [if_neg htopic]
        by_cases hchannel : channel.length > 0 ∧ isValidChannelName channel = false
        · rw [if_pos hchannel] at hw
          simp only [if_pos hchannel]
          exact part_refused hyes hw.symm
        · rw [if_neg hchannel] at hw
          simp only [if_neg hchannel]
          refine part_lookupdAddresses fun lookupds => ?_
          exact part_command hyes hw.symm rfl part_created
            (ClusterInfo.createTopicChannel_ends topic channel lookupds _)

theorem topicChannelAction_served (topic channel : String) {w : Except HTTPErr Wanted}
    (hw : wantedAction dec req topic channel = w) :
    Part opts (topicChannelAction semver dec req topic channel) (Served opts req w) := by
  unfold wantedAction at hw
  refine part_authorized (fun hyes => ?_) fun hno => part_pure (.forbidden hno)
  simp only [Bool.not_true, Bool.false_eq_true, if_false]
  cases hbody : dec.actionBody req.body with
  | error err =>
      rw [hbody] at hw
      exact part_refused hyes hw.symm
  | ok action =>
      simp only [hbody] at hw
      cases haction : actionOf action topic channel with
      | none =>
          simp only [haction] at hw ⊢
          exact part_refused hyes hw.symm
      | some x =>
          obtain ⟨command, name⟩ := x
          simp only [haction] at hw ⊢
          refine part_lookupdAddresses fun lookupds => part_getOpts ?_
          refine part_upstream (command.run_ends lookupds _) fun es err hes => ?_
          have hserved : Served opts req w es _ _ := .carried hyes hw.symm hes
          rw [if_neg (by simp)] at hserved
          -- It has been reported when the error is looked at.
          refine Part.bind (part_notify ?_)
          refine @part_respond _ _ err _ [] _ (part_pure ⟨rfl, rfl⟩) (fun _ => ?_) fun _ => ?_
          all_goals
            rw [List.append_nil, List.append_nil, List.append_nil]
            exact hserved

end Handlers

theorem reads_withOpts {opts : Options} {world : World (Reply semver)} {e : Event (Reply semver)}
    (he : e.2 = withOpts opts world e.1) : Reads opts e := by
  obtain ⟨op, r⟩ := e
  cases op <;> first | exact he | exact trivial

end Xmq.Admin
