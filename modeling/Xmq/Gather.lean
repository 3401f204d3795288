import Mathlib.Data.List.Perm.Basic
import Xmq.Runs

/-!
# Programs that ask several at once

A program makes requests, and at places starts several workers, each of which makes requests of its own
and then has an answer to hand over. The workers run at the same time; a lock lets one after another hand
over its answer, and the program goes on when all have. A request is answered by whatever the world
answers then.

`Prog.Ends` says what is known of a program when it ends, of the requests that were made and of its
result. Its rules follow the program, and hold for every order in which the workers take their steps.
-/

namespace Xmq.Gather

open Runs

/-! ### Programs -/

/-- A worker; the request `op` is answered with a `Reply op`. -/
inductive Worker {Op : Type} (Reply : Op → Type) (γ : Type) where
  | done (c : γ)
  | ask (op : Op) (k : Reply op → Worker Reply γ)

/-- `got` are the answers that were handed over already, in this order. -/
inductive Prog {Op : Type} (Reply : Op → Type) (α : Type) : Type 1 where
  | done (a : α)
  | ask (op : Op) (k : Reply op → Prog Reply α)
  | gather {γ : Type} (ws : List (Worker Reply γ)) (got : List γ) (k : List γ → Prog Reply α)

variable {Op : Type} {Reply : Op → Type} {α β γ : Type}

namespace Prog

def bind (p : Prog Reply α) (f : α → Prog Reply β) : Prog Reply β :=
  match p with
  | done a => f a
  | ask op k => ask op fun r => (k r).bind f
  | gather ws got k => gather ws got fun cs => (k cs).bind f

instance : Monad (Prog Reply) where
  pure := done
  bind := bind

/-- One request. -/
def request (op : Op) : Prog Reply (Reply op) := ask op done

/-- All workers, started at once; their answers in the order in which they were handed over. -/
def all (ws : List (Worker Reply γ)) : Prog Reply (List γ) := gather ws [] done

end Prog

/-! ### Runs -/

/-- A request that was answered. -/
abbrev Event (Reply : Op → Type) := Sigma Reply

structure State (Reply : Op → Type) (α : Type) where
  prog : Prog Reply α
  log : List (Event Reply)

/-- What the world would answer now. -/
abbrev World (Reply : Op → Type) := ∀ op, Reply op

inductive Act (Reply : Op → Type) where
  | request (world : World Reply)
  /-- A worker makes its request. -/
  | worker (i : ℕ) (world : World Reply)
  /-- A worker has the lock and hands over its answer. -/
  | hand (i : ℕ)
  /-- The program goes on. -/
  | wait

/-- One worker makes its next request. -/
def nextRequest (ws : List (Worker Reply γ)) (i : ℕ) (world : World Reply) :
    Option (Event Reply × List (Worker Reply γ)) :=
  match ws[i]? with
  | some (.ask op k) => some (⟨op, world op⟩, ws.set i (k (world op)))
  | _ => none

/-- One worker is done. -/
def nextAnswer (ws : List (Worker Reply γ)) (i : ℕ) : Option (γ × List (Worker Reply γ)) :=
  match ws[i]? with
  | some (.done c) => some (c, ws.eraseIdx i)
  | _ => none

def step (s : State Reply α) : Act Reply → Option (State Reply α)
  | .request world =>
    match s.prog with
    | .ask op k => some ⟨k (world op), s.log ++ [⟨op, world op⟩]⟩
    | _ => none
  | .worker i world =>
    match s.prog with
    | .gather ws got k =>
      match nextRequest ws i world with
      | some (e, ws) => some ⟨.gather ws got k, s.log ++ [e]⟩
      | none => none
    | _ => none
  | .hand i =>
    match s.prog with
    | .gather ws got k =>
      match nextAnswer ws i with
      | some (c, ws) => some ⟨.gather ws (got ++ [c]) k, s.log⟩
      | none => none
    | _ => none
  | .wait =>
    match s.prog with
    | .gather [] got k => some ⟨k got, s.log⟩
    | _ => none

/-! ### What a program comes to -/

/-- The requests that a worker makes on its way to an answer. -/
def Worker.Path : Worker Reply γ → List (Event Reply) → γ → Prop
  | .done c, es, c' => es = [] ∧ c' = c
  | .ask op k, es, c' => ∃ r es', es = ⟨op, r⟩ :: es' ∧ (k r).Path es' c'

/-- A worker with what it has done. -/
structure Outcome (Reply : Op → Type) (γ : Type) where
  worker : Worker Reply γ
  events : List (Event Reply)
  answer : γ
  path : worker.Path events answer

/-- All that workers have done, in the order in which they handed over their answers. -/
def Outcomes (ws : List (Worker Reply γ)) (outs : List (Outcome Reply γ)) : Prop :=
  (outs.map Outcome.worker).Perm ws

/-- The requests of workers, in some order. -/
def Mixed (outs : List (Outcome Reply γ)) (es : List (Event Reply)) : Prop :=
  es.Perm (outs.flatMap Outcome.events)

/-- However the program is run: when it ends, `Q` holds of the requests it has made and of its result. -/
def Prog.Ends : Prog Reply α → (List (Event Reply) → α → Prop) → Prop
  | .done a, Q => Q [] a
  | .ask op k, Q => ∀ r, (k r).Ends fun es a => Q (⟨op, r⟩ :: es) a
  | .gather ws got k, Q => ∀ outs es, Outcomes ws outs → Mixed outs es →
    (k (got ++ outs.map Outcome.answer)).Ends fun es' a => Q (es ++ es') a

/-! ### The rules -/

section Rules

variable {p : Prog Reply α} {Q R : List (Event Reply) → α → Prop}

theorem Prog.Ends.mono : ∀ {p : Prog Reply α} {Q R : List (Event Reply) → α → Prop}, p.Ends Q →
    (∀ es a, Q es a → R es a) → p.Ends R
  | .done a, _, _, h, hQ => hQ [] a h
  | .ask _ _, _, _, h, hQ => fun r => Prog.Ends.mono (h r) fun _ _ h => hQ _ _ h
  | .gather _ _ _, _, _, h, hQ => fun outs es ho hes =>
      Prog.Ends.mono (h outs es ho hes) fun _ _ h => hQ _ _ h

theorem Prog.Ends.bind {f : α → Prog Reply β} : ∀ {p : Prog Reply α}
    {Q : List (Event Reply) → β → Prop},
    p.Ends (fun es a => (f a).Ends fun es' b => Q (es ++ es') b) → (p >>= f).Ends Q
  | .done _, _, h => h
  | .ask _ _, _, h => fun r => Prog.Ends.bind (h r)
  | .gather _ _ _, Q, h => fun outs es ho hes =>
      Prog.Ends.bind ((h outs es ho hes).mono fun es' a h =>
        h.mono fun es'' b h => by rwa [List.append_assoc] at h)

theorem Prog.ends_of_forall : ∀ (p : Prog Reply α) {Q : List (Event Reply) → α → Prop},
    (∀ es a, Q es a) → p.Ends Q
  | .done a, _, h => h [] a
  | .ask _ k, _, h => fun r => (k r).ends_of_forall fun _ _ => h _ _
  | .gather _ _ k, _, h => fun _ _ _ _ => (k _).ends_of_forall fun _ _ => h _ _

theorem ends_pure {a : α} (h : Q [] a) : (pure a : Prog Reply α).Ends Q := h

theorem ends_request {op : Op} {Q : List (Event Reply) → Reply op → Prop} (h : ∀ r, Q [⟨op, r⟩] r) :
    (Prog.request op).Ends Q := h

theorem ends_all {ws : List (Worker Reply γ)} {Q : List (Event Reply) → List γ → Prop}
    (h : ∀ outs es, Outcomes ws outs → Mixed outs es → Q es (outs.map Outcome.answer)) :
    (Prog.all ws).Ends Q := by
  intro outs es ho hes
  show Q (es ++ []) ([] ++ outs.map Outcome.answer)
  rw [List.append_nil, List.nil_append]
  exact h outs es ho hes

/-- Each worker of a list, with what it has done. -/
theorem outcomes_map {ι : Type} {xs : List ι} {w : ι → Worker Reply γ} {outs : List (Outcome Reply γ)}
    (ho : Outcomes (xs.map w) outs) :
    ∃ vs : List (ι × Outcome Reply γ), vs.map Prod.snd = outs ∧ (vs.map Prod.fst).Perm xs ∧
      ∀ v ∈ vs, v.2.worker = w v.1 := by
  have hcomp : Relation.Comp (fun ys xs' => ys = xs'.map w) List.Perm (outs.map Outcome.worker) xs := by
    rw [List.eq_map_comp_perm]
    exact ho
  obtain ⟨xs', hmap, hperm⟩ := hcomp
  have hall : List.Forall₂ (fun x (o : Outcome Reply γ) => w x = o.worker) xs' outs := by
    rw [← List.forall₂_map_left_iff (f := w) (R := fun y (o : Outcome Reply γ) => y = o.worker),
      ← List.forall₂_map_right_iff (R := fun y y' => y = y'), List.forall₂_eq_eq_eq]
    exact hmap.symm
  obtain ⟨hlen, hzip⟩ := List.forall₂_iff_zip.mp hall
  refine ⟨xs'.zip outs, List.map_snd_zip (Nat.le_of_eq hlen.symm), ?_, fun v hv => (hzip hv).symm⟩
  rw [List.map_fst_zip (Nat.le_of_eq hlen)]
  exact hperm

/-- Workers of one kind. -/
theorem ends_all_map {ι : Type} {xs : List ι} {w : ι → Worker Reply γ}
    {Q : List (Event Reply) → List γ → Prop}
    (h : ∀ (vs : List (ι × Outcome Reply γ)) es, (vs.map Prod.fst).Perm xs →
      (∀ v ∈ vs, (w v.1).Path v.2.events v.2.answer) →
      es.Perm (vs.flatMap fun v => v.2.events) → Q es (vs.map fun v => v.2.answer)) :
    (Prog.all (xs.map w)).Ends Q := by
  refine ends_all fun outs es ho hes => ?_
  obtain ⟨vs, rfl, hperm, hw⟩ := outcomes_map ho
  rw [Mixed, List.flatMap_map] at hes
  rw [List.map_map]
  refine h vs es hperm (fun v hv => ?_) hes
  rw [← hw v hv]
  exact v.2.path

end Rules

/-! ### Every run -/

section Runs

variable {s s' : State Reply α} {ws : List (Worker Reply γ)} {outs : List (Outcome Reply γ)}
  {es : List (Event Reply)}

/-- What one worker does next, and the others after it. -/
theorem outcomes_worker {w w' : Worker Reply γ} {i : ℕ} {e : Event Reply} (hw : ws[i]? = some w)
    (hpath : ∀ es c, w'.Path es c → w.Path (e :: es) c) (ho : Outcomes (ws.set i w') outs)
    (hes : Mixed outs es) :
    ∃ outs', Outcomes ws outs' ∧ Mixed outs' (e :: es) ∧
      outs'.map Outcome.answer = outs.map Outcome.answer := by
  obtain ⟨hi, rfl⟩ := List.getElem?_eq_some_iff.mp hw
  have hset : (ws.set i w').Perm (w' :: ws.eraseIdx i) := by
    have h := (List.perm_insertIdx w' (ws.eraseIdx i)
      (show i ≤ (ws.eraseIdx i).length by rw [List.length_eraseIdx_of_lt hi]; omega))
    rwa [List.insertIdx_eraseIdx_self (by omega)] at h
  have hself : (ws[i] :: ws.eraseIdx i).Perm ws := List.getElem_cons_eraseIdx_perm hi
  have hmem : w' ∈ outs.map Outcome.worker :=
    (ho.trans hset).mem_iff.mpr List.mem_cons_self
  obtain ⟨o, hmo, hwo⟩ := List.mem_map.mp hmem
  obtain ⟨before, after, rfl⟩ := List.append_of_mem hmo
  subst hwo
  let o' : Outcome Reply γ := ⟨ws[i], e :: o.events, o.answer, hpath _ _ o.path⟩
  refine ⟨before ++ o' :: after, ?_, ?_, by simp [o']⟩
  · have hrest : ((before ++ after).map Outcome.worker).Perm (ws.eraseIdx i) := by
      refine (List.perm_cons o.worker).mp (List.Perm.trans ?_ (ho.trans hset))
      simpa using (List.perm_middle (a := o.worker)).symm
    refine List.Perm.trans ?_ hself
    refine List.Perm.trans ?_ (hrest.cons ws[i])
    simp [o']
  · have hmid : (before ++ o' :: after).flatMap Outcome.events =
        before.flatMap Outcome.events ++ e :: (o.events ++ after.flatMap Outcome.events) := by
      simp [o']
    rw [Mixed, hmid]
    refine List.Perm.trans (hes.cons e) (List.Perm.trans ?_ List.perm_middle.symm)
    simp

/-- One worker hands over its answer, and the others after it. -/
theorem outcomes_hand {c : γ} {i : ℕ} (hw : ws[i]? = some (.done c))
    (ho : Outcomes (ws.eraseIdx i) outs) :
    Outcomes ws (⟨.done c, [], c, rfl, rfl⟩ :: outs) := by
  obtain ⟨hi, hget⟩ := List.getElem?_eq_some_iff.mp hw
  have hself : (ws[i] :: ws.eraseIdx i).Perm ws := List.getElem_cons_eraseIdx_perm hi
  rw [hget] at hself
  exact (ho.cons _).trans hself

/-- What a step can be. -/
theorem step_cases {a : Act Reply} (hs : step s a = some s') :
    (∃ world op k, a = .request world ∧ s.prog = .ask op k ∧
      s' = ⟨k (world op), s.log ++ [⟨op, world op⟩]⟩) ∨
    (∃ i world, a = .worker i world ∧ ∃ (γ : Type) (ws : List (Worker Reply γ)) (got : List γ)
      (k : List γ → Prog Reply α) (op : Op) (next : Reply op → Worker Reply γ),
        s.prog = .gather ws got k ∧ ws[i]? = some (.ask op next) ∧
        s' = ⟨.gather (ws.set i (next (world op))) got k, s.log ++ [⟨op, world op⟩]⟩) ∨
    (∃ i, a = .hand i ∧ ∃ (γ : Type) (ws : List (Worker Reply γ)) (got : List γ)
      (k : List γ → Prog Reply α) (c : γ), s.prog = .gather ws got k ∧ ws[i]? = some (.done c) ∧
        s' = ⟨.gather (ws.eraseIdx i) (got ++ [c]) k, s.log⟩) ∨
    (a = .wait ∧ ∃ (γ : Type) (got : List γ) (k : List γ → Prog Reply α), s.prog = .gather [] got k ∧
      s' = ⟨k got, s.log⟩) := by
  obtain ⟨p, log⟩ := s
  cases a with
  | request world =>
      cases p with
      | ask op k =>
          cases hs
          exact .inl ⟨world, op, k, rfl, rfl, rfl⟩
      | done b => cases hs
      | gather ws got k => cases hs
  | worker i world =>
      cases p with
      | gather ws got k =>
          simp only [step, nextRequest] at hs
          split at hs
          · rename_i hnext
            split at hnext
            · rename_i hw
              cases hnext
              cases hs
              exact .inr (.inl ⟨i, world, rfl, _, ws, got, k, _, _, rfl, hw, rfl⟩)
            · cases hnext
          · cases hs
      | done b => cases hs
      | ask op k => cases hs
  | hand i =>
      cases p with
      | gather ws got k =>
          simp only [step, nextAnswer] at hs
          split at hs
          · rename_i hnext
            split at hnext
            · rename_i hw
              cases hnext
              cases hs
              exact .inr (.inr (.inl ⟨i, rfl, _, ws, got, k, _, rfl, hw, rfl⟩))
            · cases hnext
          · cases hs
      | done b => cases hs
      | ask op k => cases hs
  | wait =>
      cases p with
      | gather ws got k =>
          cases ws with
          | nil =>
              cases hs
              exact .inr (.inr (.inr ⟨rfl, _, got, k, rfl, rfl⟩))
          | cons w ws => cases hs
      | done b => cases hs
      | ask op k => cases hs

theorem step_ends {Q : List (Event Reply) → α → Prop} {a : Act Reply} (h : s.prog.Ends Q)
    (hs : step s a = some s') :
    ∃ es, s'.log = s.log ++ es ∧ s'.prog.Ends fun es' b => Q (es ++ es') b := by
  obtain ⟨p, log⟩ := s
  obtain ⟨world, op, k, -, rfl, rfl⟩ | ⟨i, world, -, γ, ws, got, k, op, next, rfl, hw, rfl⟩ |
    ⟨i, -, γ, ws, got, k, c, rfl, hw, rfl⟩ | ⟨-, γ, got, k, rfl, rfl⟩ := step_cases hs
  · exact ⟨_, rfl, h (world op)⟩
  · refine ⟨[⟨op, world op⟩], rfl, fun outs es ho hes => ?_⟩
    obtain ⟨outs', ho', hes', hans⟩ :=
      outcomes_worker hw (fun es c hpath => ⟨world op, es, rfl, hpath⟩) ho hes
    have h' := h outs' (⟨op, world op⟩ :: es) ho' hes'
    rwa [hans] at h'
  · refine ⟨[], (List.append_nil _).symm, fun outs es ho hes => ?_⟩
    have h' := h _ es (outcomes_hand hw ho) hes
    rw [List.append_assoc]
    exact h'
  · refine ⟨[], (List.append_nil _).symm, ?_⟩
    have h' := h [] [] .nil .nil
    rwa [List.map_nil, List.append_nil] at h'

/-- **What a program ends with, in every run.** -/
theorem run_ends {Q : List (Event Reply) → α → Prop} (acts : List (Act Reply)) {log : List (Event Reply)}
    {a : α} (h : s.prog.Ends Q) (hrun : run step s acts = some ⟨.done a, log⟩) :
    ∃ es, log = s.log ++ es ∧ Q es a := by
  induction acts generalizing s Q with
  | nil =>
      cases hrun
      exact ⟨[], (List.append_nil _).symm, h⟩
  | cons act acts ih =>
      obtain ⟨t, ht, hrun⟩ := run_cons_elim hrun
      obtain ⟨es, hlog, h⟩ := step_ends h ht
      obtain ⟨es', rfl, hQ⟩ := ih h hrun
      exact ⟨es ++ es', by rw [hlog, List.append_assoc], hQ⟩

/-- A worker can go on to its end by itself. -/
theorem exists_run_worker (world : World Reply) (w : Worker Reply γ) (ws : List (Worker Reply γ))
    (got : List γ) (k : List γ → Prog Reply α) (log : List (Event Reply)) :
    ∃ acts c es, run step ⟨.gather (w :: ws) got k, log⟩ acts =
      some ⟨.gather ws (got ++ [c]) k, log ++ es⟩ ∧ ∀ e ∈ es, e.2 = world e.1 := by
  induction w generalizing log with
  | done c => exact ⟨[.hand 0], c, [], by rw [List.append_nil]; rfl, by simp⟩
  | ask op next ih =>
      obtain ⟨acts, c, es, hrun, hes⟩ := ih (world op) (log ++ [⟨op, world op⟩])
      refine ⟨.worker 0 world :: acts, c, ⟨op, world op⟩ :: es, ?_, ?_⟩
      · rw [run_cons _ _ _ rfl]
        rw [List.append_assoc] at hrun
        exact hrun
      · rintro e (_ | ⟨_, he⟩)
        · rfl
        · exact hes e he

theorem exists_run_workers (world : World Reply) (ws : List (Worker Reply γ)) (got : List γ)
    (k : List γ → Prog Reply α) (log : List (Event Reply)) :
    ∃ acts cs es, run step ⟨.gather ws got k, log⟩ acts = some ⟨k cs, log ++ es⟩ ∧
      ∀ e ∈ es, e.2 = world e.1 := by
  induction ws generalizing got log with
  | nil => exact ⟨[.wait], got, [], by rw [List.append_nil]; rfl, by simp⟩
  | cons w ws ih =>
      obtain ⟨acts, c, es, hrun, hes⟩ := exists_run_worker world w ws got k log
      obtain ⟨acts', cs, es', hrun', hes'⟩ := ih (got ++ [c]) (log ++ es)
      refine ⟨acts ++ acts', cs, es ++ es', ?_, ?_⟩
      · rw [run_append, hrun, Option.bind_some, hrun', List.append_assoc]
      · intro e he
        exact (List.mem_append.mp he).elim (hes e) (hes' e)

/-- **A program ends**, whatever the world is. -/
theorem exists_run (world : World Reply) (p : Prog Reply α) (log : List (Event Reply)) :
    ∃ acts a es, run step ⟨p, log⟩ acts = some ⟨.done a, log ++ es⟩ ∧ ∀ e ∈ es, e.2 = world e.1 := by
  induction p generalizing log with
  | done a => exact ⟨[], a, [], by rw [List.append_nil]; rfl, by simp⟩
  | ask op k ih =>
      obtain ⟨acts, a, es, hrun, hes⟩ := ih (world op) (log ++ [⟨op, world op⟩])
      refine ⟨.request world :: acts, a, ⟨op, world op⟩ :: es, ?_, ?_⟩
      · rw [run_cons _ _ _ rfl]
        rw [List.append_assoc] at hrun
        exact hrun
      · rintro e (_ | ⟨_, he⟩)
        · rfl
        · exact hes e he
  | gather ws got k ih =>
      obtain ⟨acts, cs, es, hrun, hes⟩ := exists_run_workers world ws got k log
      obtain ⟨acts', a, es', hrun', hes'⟩ := ih cs (log ++ es)
      refine ⟨acts ++ acts', a, es ++ es', ?_, ?_⟩
      · rw [run_append, hrun, Option.bind_some, hrun', List.append_assoc]
      · intro e he
        exact (List.mem_append.mp he).elim (hes e) (hes' e)

end Runs

/-! ### What a program never does -/

section Safe

/-- Every request is one that `guar` allows, as long as those before were answered as `rely` says. -/
def Worker.Safe (rely guar : Event Reply → Prop) : Worker Reply γ → Prop
  | .done _ => True
  | .ask op k => ∀ r, guar ⟨op, r⟩ ∧ (rely ⟨op, r⟩ → (k r).Safe rely guar)

/-- Likewise. What is done with the answers that workers hand over must be safe for all answers. -/
def Prog.Safe (rely guar : Event Reply → Prop) : Prog Reply α → Prop
  | .done _ => True
  | .ask op k => ∀ r, guar ⟨op, r⟩ ∧ (rely ⟨op, r⟩ → (k r).Safe rely guar)
  | .gather ws _ k => (∀ w ∈ ws, w.Safe rely guar) ∧ ∀ cs, (k cs).Safe rely guar

variable {rely guar : Event Reply → Prop}

theorem Prog.Safe.bind {f : α → Prog Reply β} (hf : ∀ a, (f a).Safe rely guar) :
    ∀ {p : Prog Reply α}, p.Safe rely guar → (p >>= f).Safe rely guar
  | .done a, _ => hf a
  | .ask _ _, h => fun r => ⟨(h r).1, fun hr => Prog.Safe.bind hf ((h r).2 hr)⟩
  | .gather _ _ _, h => ⟨h.1, fun cs => Prog.Safe.bind hf (h.2 cs)⟩

theorem safe_pure (a : α) : (pure a : Prog Reply α).Safe rely guar := trivial

theorem safe_all {ws : List (Worker Reply γ)} (h : ∀ w ∈ ws, w.Safe rely guar) :
    (Prog.all ws).Safe rely guar := ⟨h, fun _ => trivial⟩

theorem Worker.safe_true : ∀ w : Worker Reply γ, w.Safe rely fun _ => True
  | .done _ => trivial
  | .ask _ k => fun r => ⟨trivial, fun _ => (k r).safe_true⟩

/-- A program that may do anything. -/
theorem Prog.safe_true : ∀ p : Prog Reply α, p.Safe rely fun _ => True
  | .done _ => trivial
  | .ask _ k => fun r => ⟨trivial, fun _ => (k r).safe_true⟩
  | .gather _ _ k => ⟨fun w _ => w.safe_true, fun cs => (k cs).safe_true⟩

/-- A step of a safe program is allowed, and leaves it safe. -/
theorem Safe.step {s s' : State Reply α} {a : Act Reply} (h : s.prog.Safe rely guar)
    (hs : step s a = some s') :
    ∃ es, s'.log = s.log ++ es ∧ (∀ e ∈ es, guar e) ∧
      ((∀ e ∈ es, rely e) → s'.prog.Safe rely guar) := by
  obtain ⟨p, log⟩ := s
  obtain ⟨world, op, k, -, rfl, rfl⟩ | ⟨i, world, -, γ, ws, got, k, op, next, rfl, hw, rfl⟩ |
    ⟨i, -, γ, ws, got, k, c, rfl, hw, rfl⟩ | ⟨-, γ, got, k, rfl, rfl⟩ := step_cases hs
  · refine ⟨[⟨op, world op⟩], rfl, ?_, fun hrely => (h (world op)).2 (hrely _ List.mem_cons_self)⟩
    rintro e he
    obtain rfl := List.mem_singleton.mp he
    exact (h (world op)).1
  · have hask := h.1 _ (List.mem_of_getElem? hw)
    refine ⟨[⟨op, world op⟩], rfl, ?_, fun hrely => ⟨fun w hw => ?_, h.2⟩⟩
    · rintro e he
      obtain rfl := List.mem_singleton.mp he
      exact (hask (world op)).1
    · obtain hw | rfl := List.mem_or_eq_of_mem_set hw
      · exact h.1 w hw
      · exact (hask (world op)).2 (hrely _ List.mem_cons_self)
  · exact ⟨[], (List.append_nil _).symm, by simp, fun _ =>
      ⟨fun w hw => h.1 w (List.mem_of_mem_eraseIdx hw), h.2⟩⟩
  · exact ⟨[], (List.append_nil _).symm, by simp, fun _ => h.2 got⟩

end Safe

/-! ### Programs with more requests -/

section Lift

variable {Op' : Type} {Reply' : Op' → Type} (f : Op → Op') (back : ∀ op, Reply' (f op) → Reply op)

def Worker.lift : Worker Reply γ → Worker Reply' γ
  | .done c => .done c
  | .ask op k => .ask (f op) fun r => (k (back op r)).lift

/-- A program with the requests `op` as a program with the requests `f op`. -/
def Prog.lift : Prog Reply α → Prog Reply' α
  | .done a => .done a
  | .ask op k => .ask (f op) fun r => (k (back op r)).lift
  | .gather ws got k => .gather (ws.map (Worker.lift f back)) got fun cs => (k cs).lift

/-- The same request on both sides. -/
def Lifts (e' : Event Reply') (e : Event Reply) : Prop := ∃ r, e' = ⟨f e.1, r⟩ ∧ e.2 = back e.1 r

theorem path_lift : ∀ {w : Worker Reply γ} {es' : List (Event Reply')} {c : γ},
    (w.lift f back).Path es' c → ∃ es, w.Path es c ∧ List.Forall₂ (Lifts f back) es' es
  | .done _, _, _, h => ⟨[], ⟨rfl, h.2⟩, h.1 ▸ .nil⟩
  | .ask op k, _, _, h => by
      obtain ⟨r, es'', rfl, h⟩ := h
      obtain ⟨es, hpath, hes⟩ := path_lift h
      exact ⟨⟨op, back op r⟩ :: es, ⟨_, es, rfl, hpath⟩, .cons ⟨r, rfl, rfl⟩ hes⟩

theorem outcomes_lift {ws : List (Worker Reply γ)} {outs' : List (Outcome Reply' γ)}
    (ho : Outcomes (ws.map (Worker.lift f back)) outs') :
    ∃ outs, Outcomes ws outs ∧ outs.map Outcome.answer = outs'.map Outcome.answer ∧
      List.Forall₂ (Lifts f back) (outs'.flatMap Outcome.events) (outs.flatMap Outcome.events) := by
  obtain ⟨vs, rfl, hperm, hw⟩ := outcomes_map ho
  have hlist : ∃ outs : List (Outcome Reply γ), outs.map Outcome.worker = vs.map Prod.fst ∧
      outs.map Outcome.answer = (vs.map Prod.snd).map Outcome.answer ∧
      List.Forall₂ (Lifts f back) ((vs.map Prod.snd).flatMap Outcome.events)
        (outs.flatMap Outcome.events) := by
    clear ho hperm
    induction vs with
    | nil => exact ⟨[], rfl, rfl, .nil⟩
    | cons v vs ih =>
        obtain ⟨outs, hworkers, hans, hes⟩ := ih fun w hw' => hw w (List.mem_cons_of_mem _ hw')
        obtain ⟨es, hpath, hv⟩ := path_lift f back (hw v List.mem_cons_self ▸ v.2.path)
        refine ⟨⟨v.1, es, v.2.answer, hpath⟩ :: outs, by rw [List.map_cons, hworkers]; rfl,
          by rw [List.map_cons, hans]; rfl, ?_⟩
        exact List.rel_append hv hes
  obtain ⟨outs, hworkers, hans, hes⟩ := hlist
  exact ⟨outs, (List.Perm.of_eq hworkers).trans hperm, hans, hes⟩

theorem Prog.Ends.lift {Q : List (Event Reply) → α → Prop} : ∀ {p : Prog Reply α}, p.Ends Q →
    (p.lift f back).Ends fun es' a => ∃ es, Q es a ∧ List.Forall₂ (Lifts f back) es' es
  | .done _, h => ⟨[], h, .nil⟩
  | .ask op k, h => fun r =>
      (Prog.Ends.lift (h (back op r))).mono fun es' a h => by
        obtain ⟨es, hQ, hes⟩ := h
        exact ⟨_, hQ, .cons ⟨r, rfl, rfl⟩ hes⟩
  | .gather ws got k, h => fun outs' es' ho hes => by
      obtain ⟨outs, ho, hans, hflat⟩ := outcomes_lift f back ho
      obtain ⟨es, hlifts, hmixed⟩ := List.perm_comp_forall₂ hes hflat
      rw [← hans]
      refine (Prog.Ends.lift (h outs es ho hmixed)).mono fun es'' a h => ?_
      obtain ⟨es₂, hQ, hes₂⟩ := h
      exact ⟨_, hQ, List.rel_append hlifts hes₂⟩

theorem Worker.Safe.lift {rely guar : Event Reply → Prop} {rely' guar' : Event Reply' → Prop}
    (hguar : ∀ op r, guar ⟨op, back op r⟩ → guar' ⟨f op, r⟩)
    (hrely : ∀ op r, rely' ⟨f op, r⟩ → rely ⟨op, back op r⟩) :
    ∀ {w : Worker Reply γ}, w.Safe rely guar → (w.lift f back).Safe rely' guar'
  | .done _, _ => trivial
  | .ask op _, h => fun r => ⟨hguar op r (h (back op r)).1, fun hr =>
      Worker.Safe.lift hguar hrely ((h (back op r)).2 (hrely op r hr))⟩

theorem Prog.Safe.lift {rely guar : Event Reply → Prop} {rely' guar' : Event Reply' → Prop}
    (hguar : ∀ op r, guar ⟨op, back op r⟩ → guar' ⟨f op, r⟩)
    (hrely : ∀ op r, rely' ⟨f op, r⟩ → rely ⟨op, back op r⟩) :
    ∀ {p : Prog Reply α}, p.Safe rely guar → (p.lift f back).Safe rely' guar'
  | .done _, _ => trivial
  | .ask op _, h => fun r => ⟨hguar op r (h (back op r)).1, fun hr =>
      Prog.Safe.lift hguar hrely ((h (back op r)).2 (hrely op r hr))⟩
  | .gather _ _ _, h => by
      refine ⟨fun w' hw' => ?_, fun cs => Prog.Safe.lift hguar hrely (h.2 cs)⟩
      obtain ⟨w, hw, rfl⟩ := List.mem_map.mp hw'
      exact (h.1 w hw).lift f back hguar hrely

end Lift

/-! ### Who answers -/

/-- What the world answers in a step. -/
def Act.world : Act Reply → Option (World Reply)
  | .request world => some world
  | .worker _ world => some world
  | .hand _ => none
  | .wait => none

/-- What is added to the log is what the world has answered. -/
theorem step_log {s s' : State Reply α} {a : Act Reply} (hs : step s a = some s') :
    ∃ es, s'.log = s.log ++ es ∧ ∀ e ∈ es, ∃ world, a.world = some world ∧ e.2 = world e.1 := by
  obtain ⟨p, log⟩ := s
  have hone : ∀ {op : Op} {world : World Reply}, ∀ e ∈ [(⟨op, world op⟩ : Event Reply)],
      e.2 = world e.1 := by
    rintro op world e he
    obtain rfl := List.mem_singleton.mp he
    rfl
  obtain ⟨world, op, k, rfl, rfl, rfl⟩ | ⟨i, world, rfl, γ, ws, got, k, op, next, rfl, hw, rfl⟩ |
    ⟨i, -, γ, ws, got, k, c, rfl, hw, rfl⟩ | ⟨-, γ, got, k, rfl, rfl⟩ := step_cases hs
  · exact ⟨_, rfl, fun e he => ⟨world, rfl, hone e he⟩⟩
  · exact ⟨_, rfl, fun e he => ⟨world, rfl, hone e he⟩⟩
  · exact ⟨[], (List.append_nil _).symm, by simp⟩
  · exact ⟨[], (List.append_nil _).symm, by simp⟩

end Xmq.Gather
