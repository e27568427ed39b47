import VoxBench.Observability.Delivery

/-!
# Timeline events of several observers

Several observers of one run, with the API process that stores it. An observer posts the
batches of its flushes; a request may be lost, refused or stored, and the answer to a
stored one may be lost, so that the observer sends the batch again. The handler awaits
nothing, so that a request is one step of the server. It leaves out every event whose id
the run already has, and the ids are the ordinals of each observer.

## Main definitions

* `deploymentMachine` — observers and the server.
* `SoleRecorder` — the step records no event of a family that another observer recorded.

## Main results

* `exactly_once_iff` — every observed event is stored once exactly when no two observers
  recorded events of one family.
* `second_observer_dropped` — the event of a second observer that is not stored.
-/

namespace VoxBench.Observability

open VoxBench.Lib VoxBench.ControlPlane

variable {n : ℕ}

/-- The observers of a run, and the server. -/
structure Deployment (n : ℕ) where
  sessions : Fin n → Session
  server : RunApiState

inductive DeploymentStep (n : ℕ) where
  /-- A step of an observer that sends nothing. -/
  | session (i : Fin n) (l : SessionStep)
  /-- A flush of an observer posts its next batch. -/
  | post (i : Fin n) (f : ℕ) (arrives unavailable answered : Bool)

def SessionStep.isSend : SessionStep → Bool
  | .send .. => true
  | _ => false

/-- A request that arrives: whether it is answered with success, and the server after it. -/
def receive (parses : Datetime → Bool) (server : RunApiState) (b : ObservationBatch Item)
    (unavailable : Bool) : Bool × RunApiState :=
  match validateBatch parses b with
  | .error _ => (false, server)
  | .ok request =>
      ((ingestObservationBatch server request unavailable).1.toOption.isSome,
        (ingestObservationBatch server request unavailable).2)

namespace Deployment

/-- New observers of a run. -/
def new (runId : String) (server : RunApiState) : Deployment n := ⟨fun _ => .new runId, server⟩

/-- One observer takes a step. -/
def step (math : FloatMath) (d : Deployment n) (i : Fin n) (l : SessionStep) : Fin n → Session :=
  Function.update d.sessions i ((d.sessions i).next math l)

def next (math : FloatMath) (parses : Datetime → Bool) (d : Deployment n) :
    DeploymentStep n → Deployment n
  | .session i l => { d with sessions := d.step math i l }
  | .post i f arrives unavailable answered =>
      match (d.sessions i).queue.nextBatch f with
      | none => d
      | some b =>
          let answer := if arrives then receive parses d.server b unavailable else (false, d.server)
          { sessions := d.step math i (.send f (answer.1 && answered))
            server := answer.2 }

/-- The stored timeline of a run. -/
def timeline (d : Deployment n) (runId : String) : List TimelineEventArtifact :=
  ((d.server.repository.get runId).map StoredRun.timelineEvents).getD []

/-- The timeline events that an observer has recorded. -/
def observed (d : Deployment n) (i : Fin n) : List TimelineEvent :=
  (d.sessions i).queue.observed .timelineEvents

/-- The timeline events that an observer takes for stored. -/
def delivered (d : Deployment n) (i : Fin n) : List TimelineEvent :=
  (d.sessions i).queue.delivered .timelineEvents

/-- The timeline events of all observers. -/
def allObserved (d : Deployment n) : List TimelineEvent := (List.finRange n).flatMap d.observed

/-- How many events of the family an observer has recorded. -/
def ordinal (d : Deployment n) (i : Fin n) (family : EventFamily) : ℕ :=
  (d.sessions i).collector.ordinal family

/-- Every observer has delivered everything. -/
def Quiet (d : Deployment n) : Prop :=
  ∀ i, (d.sessions i).queue.pending .timelineEvents = [] ∧
    (d.sessions i).queue.inFlight .timelineEvents = []

end Deployment

def deploymentMachine (math : FloatMath) (parses : Datetime → Bool) (n : ℕ) :
    Machine (Deployment n) (DeploymentStep n) where
  init d := ∃ runId server, d = .new runId server ∧
    (server.repository.get runId).map StoredRun.timelineEvents = some []
  enabled _
    | .session _ l => l.isSend = false
    | .post .. => True
  next := Deployment.next math parses

/-- What the server stores of an event. -/
def storedAs (parses : Datetime → Bool) (e : TimelineEvent) : Option TimelineEventArtifact :=
  (validateTimelineEvent parses e).toOption.map fun r => r.artifact.asUtc

/-- The stored run has every observed event exactly once, and nothing else. -/
def ExactlyOnce (parses : Datetime → Bool) (runId : String) (d : Deployment n) : Prop :=
  ((d.timeline runId).map some).Perm (d.allObserved.map (storedAs parses))

/-- The step records no event of a family of which another observer has recorded one. -/
def SoleRecorder (math : FloatMath) (d : Deployment n) : DeploymentStep n → Prop
  | .session i l => ∀ family ∈ (d.sessions i).emits math l, ∀ j, j ≠ i → d.ordinal j family = 0
  | .post .. => True

/-! ## Ids -/

/-- No two observers have recorded events of one family. -/
def Deployment.SoleRecorders (d : Deployment n) : Prop :=
  ∀ family i j, 0 < d.ordinal i family → 0 < d.ordinal j family → i = j

section Ids

variable {parses : Datetime → Bool} {d : Deployment n} {e : TimelineEvent}

theorem validateText_eq_strip {value text fieldName : String} {maxLength : ℕ}
    (h : validateText value fieldName maxLength = .ok text) : text = Text.strip value := by
  unfold validateText validateReferenceText at h
  split at h
  · split at h
    · exact (Except.ok.inj h).symm
    · cases h
  · cases h

theorem eventId_of_validateTimelineEvent {r : TimelineEventObservationRequest}
    (h : validateTimelineEvent parses e = .ok r) : r.eventId = Text.strip e.eventId := by
  simp only [validateTimelineEvent, bind_eq_ok] at h
  obtain ⟨-, -, -, -, ts, -, eventId, hid, name, -, clockDomain, -, direction, -, stage, -,
    streamAlias, -, source, -, correlationAlias, -, attributes, -, h⟩ := h
  cases h
  exact validateText_eq_strip hid

/-- The ids of an observer are stored as they are. -/
theorem Numbered.strip {ordinal : EventFamily → ℕ} {events : List TimelineEvent}
    (h : Numbered ordinal events) (he : e ∈ events) : Text.strip e.eventId = e.eventId := by
  obtain ⟨family, m, -, hid⟩ := (h.mem_iff _).mp (List.mem_map_of_mem he)
  rw [hid, strip_eventId]

theorem storedAs_eq_some_iff {a : TimelineEventArtifact} :
    storedAs parses e = some a ↔ ∃ r, validateTimelineEvent parses e = .ok r ∧
      r.artifact.asUtc = a := by
  unfold storedAs
  cases validateTimelineEvent parses e with
  | error err => simp [Except.toOption]
  | ok r => simp [Except.toOption]

theorem Numbered.eventId_storedAs {ordinal : EventFamily → ℕ} {events : List TimelineEvent}
    (h : Numbered ordinal events) (he : e ∈ events) {a : TimelineEventArtifact}
    (ha : storedAs parses e = some a) : a.eventId = e.eventId := by
  obtain ⟨r, hr, rfl⟩ := storedAs_eq_some_iff.mp ha
  exact (eventId_of_validateTimelineEvent hr).trans (h.strip he)

/-- The ids of all observers are different exactly when each family has one recorder. -/
theorem nodup_allObserved_iff (h : ∀ i, Numbered (d.ordinal i) (d.observed i)) :
    (d.allObserved.map TimelineEvent.eventId).Nodup ↔ d.SoleRecorders := by
  rw [Deployment.allObserved, List.map_flatMap, List.nodup_flatMap]
  constructor
  · rintro ⟨-, hdisjoint⟩ family i j hi hj
    by_contra hne
    have hmem : ∀ i, 0 < d.ordinal i family →
        eventId family 0 ∈ (d.observed i).map TimelineEvent.eventId :=
      fun i hpos => ((h i).mem_iff _).mpr ⟨family, 0, hpos, rfl⟩
    have hsymm : Std.Symm (Function.onFun List.Disjoint
        fun i => (d.observed i).map TimelineEvent.eventId) := ⟨fun _ _ h => h.symm⟩
    have hij := hdisjoint.forall (List.mem_finRange i) (List.mem_finRange j) hne
    exact hij (hmem i hi) (hmem j hj)
  · intro hsole
    refine ⟨fun i _ => (h i).nodup, ?_⟩
    refine (List.nodup_finRange n).pairwise_of_forall_ne fun i _ j _ hne => ?_
    intro id hidi hidj
    obtain ⟨family, m, hm, rfl⟩ := ((h i).mem_iff _).mp hidi
    obtain ⟨family', m', hm', hid⟩ := ((h j).mem_iff _).mp hidj
    obtain ⟨rfl, rfl⟩ := eventId_inj hid
    exact hne (hsole family i j (by omega) (by omega))

end Ids

/-! ## One step -/

namespace Session

variable {math : FloatMath} {s : Session}

theorem delivered_next_send (f : ℕ) (delivers : Bool) (k : ObservationKind) :
    (s.next math (.send f delivers)).queue.delivered k = s.queue.delivered k ++
      if delivers then ((s.queue.nextBatch f).map fun b => b.items k).getD [] else [] := by
  have hqueue : (s.next math (.send f delivers)).queue =
      (flushMachine Item).next s.queue (.send f delivers) := rfl
  rw [hqueue, delivered_next]
  cases delivers <;> rfl

theorem delivered_next_of_not_send {l : SessionStep} (hl : l.isSend = false)
    (k : ObservationKind) : (s.next math l).queue.delivered k = s.queue.delivered k := by
  rw [next]
  cases hstep : s.queueStep math l with
  | none => rfl
  | some q =>
      have hcall : (s.call math l).map (fun call => ObserverStep.observe call.1) = some q →
          s.queue.newlyDelivered q k = [] := by
        intro hmap
        obtain ⟨call, -, rfl⟩ := Option.map_eq_some_iff.mp hmap
        rfl
      have hq : s.queue.newlyDelivered q k = [] := by
        cases l with
        | send f delivers => cases hl
        | flush =>
            cases hstep
            rfl
        | restore f =>
            cases hstep
            rfl
        | _ => exact hcall hstep
      rw [Option.map_some, Option.getD_some, delivered_next, hq, List.append_nil]

theorem runId_next {l : SessionStep} : (s.next math l).queue.runId = s.queue.runId := by
  rw [next]
  cases s.queueStep math l with
  | none => rfl
  | some q => exact Observability.runId_next

end Session

/-- What every observer keeps. -/
structure ObserversInv (runId : String) (d : Deployment n) : Prop where
  sound : ∀ i, (d.sessions i).queue.Sound
  runId_eq : ∀ i, (d.sessions i).queue.runId = runId
  numbered : ∀ i, Numbered (d.ordinal i) (d.observed i)

/-- The stored timeline has observed events only, and everything delivered, as long as no
two observers record events of one family. -/
structure ServerInv (parses : Datetime → Bool) (k : Uuid) (d : Deployment n) (run : StoredRun) :
    Prop where
  found : d.server.repository.find? k = some run
  drawn : ∀ a ∈ run.timelineEvents, ∃ i, ∃ e ∈ d.observed i, storedAs parses e = some a
  kept : d.SoleRecorders → ∀ i, ∀ e ∈ d.delivered i, ∃ a ∈ run.timelineEvents,
    storedAs parses e = some a

section Step

variable {math : FloatMath} {parses : Datetime → Bool} {runId : String} {k : Uuid}
  {d : Deployment n} {run : StoredRun}

/-- Something that holds of every observer, after a step of one of them. -/
theorem forall_step {P : Fin n → Session → Prop} {i : Fin n} {l : SessionStep}
    (h : ∀ j, P j (d.sessions j)) (hi : P i ((d.sessions i).next math l)) (j : Fin n) :
    P j (d.step math i l j) := by
  unfold Deployment.step
  by_cases hj : j = i
  · subst hj
    rwa [Function.update_self]
  · rw [Function.update_of_ne hj]
    exact h j

theorem observersInv_step (h : ObserversInv runId d) (i : Fin n) (l : SessionStep)
    (server : RunApiState) : ObserversInv runId ⟨d.step math i l, server⟩ where
  sound := forall_step (P := fun _ s => s.queue.Sound) h.sound (Session.sound_next (h.sound i))
  runId_eq := forall_step (P := fun _ s => s.queue.runId = runId) h.runId_eq
    (Session.runId_next.trans (h.runId_eq i))
  numbered := forall_step
    (P := fun _ s => Numbered s.collector.ordinal (s.queue.observed .timelineEvents)) h.numbered
    (Session.numbered_next (h.numbered i))

/-- Every step is a step of one observer, or does nothing to the observers. -/
theorem sessions_next (l : DeploymentStep n) :
    (Deployment.next math parses d l).sessions = d.sessions ∨
      ∃ i l', (Deployment.next math parses d l).sessions = d.step math i l' := by
  cases l with
  | session i l => exact .inr ⟨i, l, rfl⟩
  | post i f arrives unavailable answered =>
      rw [Deployment.next]
      split
      · exact .inl rfl
      · exact .inr ⟨i, _, rfl⟩

theorem observersInv_next (h : ObserversInv runId d) (l : DeploymentStep n) :
    ObserversInv runId (Deployment.next math parses d l) := by
  obtain hsame | ⟨i, l', hstep⟩ := sessions_next (d := d) l
  · exact ⟨fun i => by rw [hsame]; exact h.sound i, fun i => by rw [hsame]; exact h.runId_eq i,
      fun i => by
        have hi := h.numbered i
        unfold Deployment.ordinal Deployment.observed at hi ⊢
        rwa [hsame]⟩
  · have hinv := @observersInv_step _ math _ _ h i l' (Deployment.next math parses d l).server
    rw [← hstep] at hinv
    exact hinv

theorem observed_step (i : Fin n) (l : SessionStep) (server : RunApiState) (j : Fin n) :
    ∃ events, (Deployment.mk (d.step math i l) server).observed j = d.observed j ++ events := by
  refine forall_step (P := fun j s => ∃ events, s.queue.observed .timelineEvents =
    d.observed j ++ events) (fun j => ⟨[], ?_⟩) ⟨_, Session.observed_next _⟩ j
  rw [List.append_nil]
  rfl

theorem ordinal_le_step (i : Fin n) (l : SessionStep) (server : RunApiState) (j : Fin n)
    (family : EventFamily) :
    d.ordinal j family ≤ (Deployment.mk (d.step math i l) server).ordinal j family := by
  refine forall_step (P := fun j s => d.ordinal j family ≤ s.collector.ordinal family)
    (fun j => le_rfl) ?_ j
  obtain ⟨-, -, hordinal⟩ | ⟨family', e, -, -, -, hordinal⟩ :=
    Session.emits_spec math (d.sessions i) l
  · rw [hordinal]
    rfl
  · rw [hordinal]
    by_cases hfamily : family = family'
    · subst hfamily
      rw [Function.update_self]
      exact Nat.le_succ _
    · rw [Function.update_of_ne hfamily]
      rfl

theorem ordinal_le_next (l : DeploymentStep n) (j : Fin n) (family : EventFamily) :
    d.ordinal j family ≤ (Deployment.next math parses d l).ordinal j family := by
  obtain hsame | ⟨i, l', hstep⟩ := sessions_next (d := d) l
  · rw [Deployment.ordinal, Deployment.ordinal, hsame]
  · have hle := @ordinal_le_step _ math d i l' d.server j family
    rw [Deployment.ordinal, Deployment.ordinal, hstep]
    exact hle

/-- Recorders stay recorders. -/
theorem Deployment.SoleRecorders.of_le {d' : Deployment n} (h : d'.SoleRecorders)
    (hle : ∀ j family, d.ordinal j family ≤ d'.ordinal j family) : d.SoleRecorders :=
  fun family i j hi hj => h family i j (hi.trans_le (hle i family)) (hj.trans_le (hle j family))

/-- A request that is answered with success adds the events of its batch. -/
theorem receive_spec {server : RunApiState} {b : ObservationBatch Item} {unavailable : Bool}
    (hparse : Uuid.parse b.runId = some k) (hfind : server.repository.find? k = some run) :
    ((receive parses server b unavailable).1 = false ∧
      (receive parses server b unavailable).2.repository = server.repository) ∨
    ∃ request run', validateBatch parses b = .ok request ∧
      (receive parses server b unavailable).2.repository.find? k = some run' ∧
      ∀ a, a ∈ run'.timelineEvents ↔ a ∈ run.timelineEvents ∨ ∃ r ∈ request.timelineEvents,
        r.eventId ∉ run.timelineEvents.map TimelineEventArtifact.eventId ∧
          r.artifact.asUtc = a := by
  cases hvalid : validateBatch parses b with
  | error e => exact .inl (by simp [receive, hvalid])
  | ok request =>
      have hreceive : receive parses server b unavailable =
          ((ingestObservationBatch server request unavailable).1.toOption.isSome,
            (ingestObservationBatch server request unavailable).2) := by simp [receive, hvalid]
      simp only [hreceive]
      rw [← runId_of_validateBatch hvalid] at hparse
      obtain hsame | ⟨-, recordings, hfound⟩ := find?_ingest hparse hfind
      · exact .inl hsame
      · refine .inr ⟨request, _, rfl, hfound, fun a => ?_⟩
        have hutc : run.timelineEvents.map TimelineEventArtifact.asUtc = run.timelineEvents :=
          congrArg StoredRun.timelineEvents (RunStore.asUtc_of_find? hfind)
        simp only [StoredRun.asUtc, StoredRun.addObservations, List.map_append, List.map_map, hutc,
          List.mem_append, List.mem_map, List.mem_filter, decide_eq_true_eq, Function.comp_apply,
          and_assoc]

/-- The rule for a step that only adds. -/
theorem ServerInv.grow {d' : Deployment n} {run' : StoredRun} (h : ServerInv parses k d run)
    (hfound : d'.server.repository.find? k = some run')
    (hobserved : ∀ j, ∃ events, d'.observed j = d.observed j ++ events)
    (hordinal : ∀ j family, d.ordinal j family ≤ d'.ordinal j family)
    (hsub : ∀ a ∈ run.timelineEvents, a ∈ run'.timelineEvents)
    (hnew : ∀ a ∈ run'.timelineEvents, a ∈ run.timelineEvents ∨
      ∃ i, ∃ e ∈ d.observed i, storedAs parses e = some a)
    (hdelivered : d.SoleRecorders → ∀ j, ∀ e ∈ d'.delivered j, e ∈ d.delivered j ∨
      ∃ a ∈ run'.timelineEvents, storedAs parses e = some a) : ServerInv parses k d' run' where
  found := hfound
  drawn := by
    intro a ha
    obtain ⟨i, e, he, hstored⟩ : ∃ i, ∃ e ∈ d.observed i, storedAs parses e = some a := by
      rcases hnew a ha with hold | hnew
      · exact h.drawn a hold
      · exact hnew
    obtain ⟨events, hevents⟩ := hobserved i
    refine ⟨i, e, ?_, hstored⟩
    rw [hevents]
    exact List.mem_append_left _ he
  kept := by
    intro hsole j e he
    have hsole' := hsole.of_le hordinal
    rcases hdelivered hsole' j e he with hold | hnew
    · obtain ⟨a, ha, hstored⟩ := h.kept hsole' j e hold
      exact ⟨a, hsub a ha, hstored⟩
    · exact hnew

/-- A step of an observer that delivers nothing. -/
theorem serverInv_step (h : ServerInv parses k d run) {i : Fin n} {l : SessionStep}
    {server : RunApiState} (hserver : server.repository = d.server.repository)
    (hl : ((d.sessions i).next math l).queue.delivered .timelineEvents = d.delivered i) :
    ServerInv parses k ⟨d.step math i l, server⟩ run := by
  refine h.grow ?_ (observed_step i l server) (ordinal_le_step i l server) (fun _ ha => ha)
    (fun _ ha => .inl ha) fun _ j e he => .inl ?_
  · rw [hserver]
    exact h.found
  · have hsame : ∀ j, (d.step math i l j).queue.delivered .timelineEvents = d.delivered j :=
      forall_step (P := fun j s => s.queue.delivered .timelineEvents = d.delivered j)
        (fun _ => rfl) hl
    rw [← hsame j]
    exact he

/-- The events of a batch that was stored are stored, unless one with the same id of another
observer was. -/
theorem kept_of_batch (hobs : ObserversInv runId d) (h : ServerInv parses k d run)
    (hsole : d.SoleRecorders) {i : Fin n} {run' : StoredRun} {request : ObservationBatchRequest}
    {b : ObservationBatch Item} (hdrawn : b.DrawnFrom (d.sessions i).queue.observed)
    (hvalid : validateBatch parses b = .ok request)
    (hmem : ∀ a, a ∈ run'.timelineEvents ↔ a ∈ run.timelineEvents ∨ ∃ r ∈ request.timelineEvents,
      r.eventId ∉ run.timelineEvents.map TimelineEventArtifact.eventId ∧ r.artifact.asUtc = a) :
    ∀ e ∈ b.items .timelineEvents, ∃ a ∈ run'.timelineEvents, storedAs parses e = some a := by
  intro e he
  have hobserved : e ∈ d.observed i :=
    Multiset.mem_coe.mp (Multiset.mem_of_le (hdrawn .timelineEvents) (Multiset.mem_coe.mpr he))
  obtain ⟨r, hr, hstored⟩ := exists_mem_of_forall₂ (validateBatch_spec hvalid).2.flip he
  by_cases hid : r.eventId ∈ run.timelineEvents.map TimelineEventArtifact.eventId
  · -- the stored event with this id is this one
    obtain ⟨a, ha, haid⟩ := List.mem_map.mp hid
    obtain ⟨j, e', he', hstored'⟩ := h.drawn a ha
    have hsame : e'.eventId = e.eventId := by
      rw [← (hobs.numbered j).eventId_storedAs he' hstored', haid,
        eventId_of_validateTimelineEvent hstored, (hobs.numbered i).strip hobserved]
    have hall : ∀ {j e}, e ∈ d.observed j → e ∈ d.allObserved :=
      fun {j} _ he => List.mem_flatMap.mpr ⟨j, List.mem_finRange j, he⟩
    have heq : e' = e := List.inj_on_of_nodup_map ((nodup_allObserved_iff hobs.numbered).mpr hsole)
      (hall he') (hall hobserved) hsame
    refine ⟨a, (hmem a).mpr (.inl ha), ?_⟩
    rw [← heq]
    exact hstored'
  · exact ⟨r.artifact.asUtc, (hmem _).mpr (.inr ⟨r, hr, hid, rfl⟩),
      storedAs_eq_some_iff.mpr ⟨r, hstored, rfl⟩⟩

theorem serverInv_next (hparse : Uuid.parse runId = some k) (hobs : ObserversInv runId d)
    (h : ServerInv parses k d run) {l : DeploymentStep n}
    (hl : (deploymentMachine math parses n).enabled d l) :
    ∃ run', ServerInv parses k (Deployment.next math parses d l) run' := by
  cases l with
  | session i l => exact ⟨run, serverInv_step h rfl (Session.delivered_next_of_not_send hl _)⟩
  | post i f arrives unavailable answered =>
      rw [Deployment.next]
      cases hbatch : (d.sessions i).queue.nextBatch f with
      | none => exact ⟨run, h⟩
      | some b =>
          have hid : Uuid.parse b.runId = some k := by
            rw [(hobs.sound i).addressed.nextBatch hbatch, hobs.runId_eq i, hparse]
          have hfailed : ∀ server : RunApiState, server.repository = d.server.repository →
              ServerInv parses k ⟨d.step math i (.send f false), server⟩ run := by
            intro server hserver
            refine serverInv_step h hserver ?_
            rw [Session.delivered_next_send]
            exact List.append_nil _
          cases arrives with
          | false => exact ⟨run, hfailed _ rfl⟩
          | true =>
              dsimp only
              rw [if_pos rfl]
              obtain ⟨hrefused, hserver⟩ | ⟨request, run', hvalid, hfound, hmem⟩ :=
                receive_spec hid h.found
              · rw [hrefused]
                exact ⟨run, hfailed _ hserver⟩
              · have hdrawn := (hobs.sound i).drawn.nextBatch hbatch
                refine ⟨run', h.grow hfound (observed_step i _ _) (ordinal_le_step i _ _)
                  (fun a ha => (hmem a).mpr (.inl ha)) (fun a ha => ?_) fun hsole => ?_⟩
                · rcases (hmem a).mp ha with hold | ⟨r, hr, -, rfl⟩
                  · exact .inl hold
                  · obtain ⟨e, he, hstored⟩ := exists_mem_of_forall₂ (validateBatch_spec hvalid).2 hr
                    refine .inr ⟨i, e, ?_, storedAs_eq_some_iff.mpr ⟨r, hstored, rfl⟩⟩
                    exact Multiset.mem_coe.mp
                      (Multiset.mem_of_le (hdrawn .timelineEvents) (Multiset.mem_coe.mpr he))
                · have hkept := kept_of_batch hobs h hsole hdrawn hvalid hmem
                  refine forall_step (P := fun j s => ∀ e ∈ s.queue.delivered .timelineEvents,
                    e ∈ d.delivered j ∨ ∃ a ∈ run'.timelineEvents, storedAs parses e = some a)
                    (fun j e he => .inl he) fun e he => ?_
                  rw [Session.delivered_next_send, List.mem_append] at he
                  rcases he with hold | hnew
                  · exact .inl hold
                  · rw [hbatch] at hnew
                    split at hnew
                    · exact .inr (hkept e hnew)
                    · cases hnew

end Step

/-! ## Runs -/

section Runs

variable {math : FloatMath} {parses : Datetime → Bool} {runId : String} {k : Uuid}
  {d : Deployment n} {run : StoredRun}

/-- In a quiet state everything observed is delivered. -/
theorem mem_delivered_of_quiet (hobs : ObserversInv runId d) (hquiet : d.Quiet) {i : Fin n}
    {e : TimelineEvent} (he : e ∈ d.observed i) : e ∈ d.delivered i := by
  have hall := (hobs.sound i).conserved .timelineEvents
  rw [(hquiet i).1, (hquiet i).2] at hall
  have hmem : e ∈ ((d.sessions i).queue.observed .timelineEvents : Multiset TimelineEvent) :=
    Multiset.mem_coe.mpr he
  rw [hall] at hmem
  simpa [Deployment.delivered] using hmem

/-- The ids of what is stored of some events are the ids of the events. -/
theorem map_eventId_storedAs (hobs : ObserversInv runId d)
    (hstored : ∀ e ∈ d.allObserved, ∃ a, storedAs parses e = some a) :
    (d.allObserved.map (storedAs parses)).map (Option.map TimelineEventArtifact.eventId) =
      d.allObserved.map (some ∘ TimelineEvent.eventId) := by
  rw [List.map_map]
  refine List.map_congr_left fun e he => ?_
  obtain ⟨i, -, hi⟩ := List.mem_flatMap.mp he
  obtain ⟨a, ha⟩ := hstored e he
  rw [Function.comp_apply, ha, Option.map_some, (hobs.numbered i).eventId_storedAs hi ha]
  rfl

/-- In a quiet state everything is stored once exactly when no two observers have recorded
events of one family. -/
theorem exactlyOnce_iff_soleRecorders (hobs : ObserversInv runId d) (h : ServerInv parses k d run)
    (hparse : Uuid.parse runId = some k) (hquiet : d.Quiet) :
    ExactlyOnce parses runId d ↔ d.SoleRecorders := by
  have htimeline : d.timeline runId = run.timelineEvents := by
    rw [Deployment.timeline, RunStore.get, hparse, Option.bind_some, h.found]
    rfl
  have hids : (run.timelineEvents.map (some ∘ TimelineEventArtifact.eventId)).Nodup := by
    rw [← List.map_map]
    exact (RunStore.nodup_eventId_of_find? h.found).map (Option.some_injective _)
  have hcomp : (run.timelineEvents.map some).map (Option.map TimelineEventArtifact.eventId) =
      run.timelineEvents.map (some ∘ TimelineEventArtifact.eventId) := by
    rw [List.map_map]
    rfl
  rw [ExactlyOnce, htimeline, ← nodup_allObserved_iff hobs.numbered]
  constructor
  · intro hperm
    -- the stored ids are different, and they are the observed ones
    have hstored : ∀ e ∈ d.allObserved, ∃ a, storedAs parses e = some a := by
      intro e he
      have hmem := hperm.mem_iff.mpr (List.mem_map_of_mem (f := storedAs parses) he)
      obtain ⟨a, -, ha⟩ := List.mem_map.mp hmem
      exact ⟨a, ha.symm⟩
    have hnodup := ((hperm.map (Option.map TimelineEventArtifact.eventId)).nodup_iff).mp
      (hcomp ▸ hids)
    rw [map_eventId_storedAs hobs hstored, ← List.map_map] at hnodup
    exact List.Nodup.of_map _ hnodup
  · intro hnodup
    have hkept : ∀ e ∈ d.allObserved, ∃ a ∈ run.timelineEvents, storedAs parses e = some a := by
      intro e he
      obtain ⟨i, -, hi⟩ := List.mem_flatMap.mp he
      exact h.kept ((nodup_allObserved_iff hobs.numbered).mp hnodup) i e
        (mem_delivered_of_quiet hobs hquiet hi)
    have hleft : (run.timelineEvents.map some).Nodup :=
      List.Nodup.of_map (Option.map TimelineEventArtifact.eventId) (hcomp ▸ hids)
    have hright : (d.allObserved.map (storedAs parses)).Nodup := by
      refine List.Nodup.of_map (Option.map TimelineEventArtifact.eventId) ?_
      rw [map_eventId_storedAs hobs fun e he => (hkept e he).imp fun _ ha => ha.2, ← List.map_map]
      exact hnodup.map (Option.some_injective _)
    rw [List.perm_ext_iff_of_nodup hleft hright]
    intro x
    constructor
    · intro hx
      obtain ⟨a, ha, rfl⟩ := List.mem_map.mp hx
      obtain ⟨i, e, he, hstored⟩ := h.drawn a ha
      exact List.mem_map.mpr ⟨e, List.mem_flatMap.mpr ⟨i, List.mem_finRange i, he⟩, hstored⟩
    · intro hx
      obtain ⟨e, he, rfl⟩ := List.mem_map.mp hx
      obtain ⟨a, ha, hstored⟩ := hkept e he
      rw [hstored]
      exact List.mem_map_of_mem ha

/-- A step keeps one recorder for each family exactly when it records nothing of a family
that has another. -/
theorem soleRecorder_iff (h : d.SoleRecorders) (l : DeploymentStep n) :
    SoleRecorder math d l ↔ (Deployment.next math parses d l).SoleRecorders := by
  have hsame : ∀ d' : Deployment n, (∀ j family, d'.ordinal j family = d.ordinal j family) →
      d'.SoleRecorders := by
    intro d' hordinal family i j hi hj
    rw [hordinal] at hi hj
    exact h family i j hi hj
  cases l with
  | post i f arrives unavailable answered =>
      refine iff_of_true trivial ?_
      rw [Deployment.next]
      split
      · exact h
      · refine hsame _ fun j family => ?_
        exact forall_step (P := fun j s => s.collector.ordinal family = d.ordinal j family)
          (fun _ => rfl) rfl j
  | session i l =>
      obtain ⟨hnone, -, hordinal⟩ | ⟨family, e, hsome, -, -, hordinal⟩ :=
        Session.emits_spec math (d.sessions i) l
      · refine iff_of_true (by simp [SoleRecorder, hnone]) (hsame _ fun j family => ?_)
        exact forall_step (P := fun j s => s.collector.ordinal family = d.ordinal j family)
          (fun _ => rfl) (congrFun hordinal family) j
      · have hi : (Deployment.next math parses d (.session i l)).ordinal i family =
            d.ordinal i family + 1 := by
          simp [Deployment.next, Deployment.ordinal, Deployment.step, hordinal]
        have hother : ∀ j family', j ≠ i ∨ family' ≠ family →
            (Deployment.next math parses d (.session i l)).ordinal j family' =
              d.ordinal j family' := by
          intro j family' hne
          by_cases hj : j = i
          · subst hj
            have hfamily : family' ≠ family := hne.resolve_left fun hji => hji rfl
            simp [Deployment.next, Deployment.ordinal, Deployment.step, hordinal,
              Function.update_of_ne hfamily]
          · simp [Deployment.next, Deployment.ordinal, Deployment.step, Function.update_of_ne hj]
        simp only [SoleRecorder, hsome, Option.mem_some_iff, forall_eq']
        constructor
        · intro hzero family' j j' hj hj'
          by_cases hfamily : family' = family
          · subst hfamily
            have honly : ∀ j, 0 < (Deployment.next math parses d (.session i l)).ordinal j family' →
                j = i := by
              intro j hpos
              by_contra hne
              rw [hother j family' (.inl hne), hzero j hne] at hpos
              exact absurd hpos (lt_irrefl 0)
            rw [honly j hj, honly j' hj']
          · rw [hother j family' (.inr hfamily)] at hj
            rw [hother j' family' (.inr hfamily)] at hj'
            exact h family' j j' hj hj'
        · intro hsole j hne
          by_contra hpos
          refine hne (hsole family j i ?_ ?_)
          · rw [hother j family (.inl hne)]
            omega
          · rw [hi]
            omega

/-- Over a run, the observers end with one recorder for each family exactly when every step
kept it so. -/
theorem soleRecorders_exec_iff {ls : List (DeploymentStep n)} {server : RunApiState}
    (hls : (deploymentMachine math parses n).Legal (.new runId server) ls) :
    ((deploymentMachine math parses n).exec (.new runId server) ls).SoleRecorders ↔
      (deploymentMachine math parses n).Along (SoleRecorder math) (.new runId server) ls := by
  have hnew : (Deployment.new runId server : Deployment n).SoleRecorders :=
    fun family i j hi _ => absurd hi (lt_irrefl 0)
  rw [← Machine.forall_prefix_iff_along (P := Deployment.SoleRecorders) (I := fun _ => True)
    (fun _ _ _ _ => trivial) (fun d l _ _ hd => soleRecorder_iff hd l) hls trivial hnew]
  constructor
  · rintro hsole ks ⟨rest, rfl⟩
    refine hsole.of_le ?_
    rw [Machine.exec_append]
    refine Machine.Along.relates (R := fun d d' : Deployment n => ∀ j family,
      d.ordinal j family ≤ d'.ordinal j family) (fun _ _ _ => le_rfl) ?_ (Machine.along_true _ rest)
    exact fun d d' l hle _ j family => (hle j family).trans (ordinal_le_next l j family)
  · exact fun h => h ls List.prefix_rfl

/-- After any run of observers of one run, with any losses and redeliveries, that ends with
nothing left to deliver, the stored run has every observed event exactly once if and only if
no step recorded an event of a family of which another observer had recorded one. -/
theorem exactly_once_iff (math : FloatMath) (parses : Datetime → Bool) (runId : String)
    (server : RunApiState) (ls : List (DeploymentStep n))
    (hempty : (server.repository.get runId).map StoredRun.timelineEvents = some [])
    (hls : (deploymentMachine math parses n).Legal (.new runId server) ls)
    (hquiet : ((deploymentMachine math parses n).exec (.new runId server) ls).Quiet) :
    ExactlyOnce parses runId ((deploymentMachine math parses n).exec (.new runId server) ls) ↔
      (deploymentMachine math parses n).Along (SoleRecorder math) (.new runId server) ls := by
  obtain ⟨run, hget, hnil⟩ := Option.map_eq_some_iff.mp hempty
  obtain ⟨k, hparse, hfind⟩ := Option.bind_eq_some_iff.mp hget
  have hinv : ObserversInv runId ((deploymentMachine math parses n).exec (.new runId server) ls) ∧
      ∃ run, ServerInv parses k
        ((deploymentMachine math parses n).exec (.new runId server) ls) run := by
    refine Machine.Along.invariant (I := fun d => ObserversInv runId d ∧ ∃ run,
      ServerInv parses k d run) (fun d l hl hd => ?_) hls ⟨?_, run, hfind, ?_, ?_⟩
    · obtain ⟨hobs, run, h⟩ := hd
      exact ⟨observersInv_next hobs l, serverInv_next hparse hobs h hl⟩
    · exact ⟨fun _ => sound_new runId, fun _ => rfl, fun _ => numbered_nil⟩
    · simp [hnil]
    · intro _ i e he
      cases he
  obtain ⟨hobs, run, h⟩ := hinv
  rw [exactlyOnce_iff_soleRecorders hobs h hparse hquiet, soleRecorders_exec_iff hls]

end Runs

/-! ## Two observers -/

/-- A packet of a stream. -/
def streamPacket : RtpPacket where
  streamAlias := "caller"
  direction := .received
  sequenceNumber := 7
  rtpTimestamp := 160
  payloadType := 0
  clockRateHz := 8000
  marker := false
  clockDomain := "tap"
  alignmentUncertaintyMs := none
  ts := .utc 0
  alias_safe := by decide +kernel
  sequence_fits := by decide
  timestamp_fits := by decide
  payload_fits := by decide
  clock_fits := by decide
  domain_safe := by decide +kernel
  uncertainty_nonneg := nonneg_of_mem_none

/-- The first delivery is stored but reported as failed. -/
def redelivery : List (DeploymentStep 1) :=
  [.session 0 (.rtpPacket streamPacket), .session 0 .flush, .post 0 0 true false false,
    .session 0 (.restore 0), .session 0 .flush, .post 0 1 true false true]

theorem exactly_once_redelivered :
    ExactlyOnce (fun _ => true) (Uuid.ofNat 1).str
      ((deploymentMachine silence (fun _ => true) 1).exec (.new (Uuid.ofNat 1).str observedState)
        redelivery) := by
  refine (exactly_once_iff silence (fun _ => true) (Uuid.ofNat 1).str observedState redelivery
    (by decide +kernel) ⟨rfl, rfl, trivial, rfl, rfl, trivial, trivial⟩ ?_).mpr ?_
  · unfold Deployment.Quiet
    decide +kernel
  · have hone : ∀ (d : Deployment 1) (l : DeploymentStep 1), SoleRecorder silence d l := by
      intro d l
      cases l with
      | session i l => exact fun _ _ j hj => absurd (Subsingleton.elim j i) hj
      | post => trivial
    exact (Machine.along_true _ _).mono fun d l _ => hone d l

/-- Two observers record a packet each; both are delivered, and one of them is stored. -/
theorem second_observer_dropped :
    let ls : List (DeploymentStep 2) :=
      [.session 0 (.rtpPacket streamPacket), .session 0 .flush, .post 0 0 true false true,
        .session 1 (.rtpPacket streamPacket), .session 1 .flush, .post 1 0 true false true]
    let d := (deploymentMachine silence (fun _ => true) 2).exec
      (.new (Uuid.ofNat 1).str observedState) ls
    (deploymentMachine silence (fun _ => true) 2).Legal
      (.new (Uuid.ofNat 1).str observedState) ls ∧ d.Quiet ∧
      ¬ ExactlyOnce (fun _ => true) (Uuid.ofNat 1).str d := by
  refine ⟨⟨rfl, rfl, trivial, rfl, rfl, trivial, trivial⟩, ?_, fun hperm => ?_⟩
  · unfold Deployment.Quiet
    decide +kernel
  · have hlength := hperm.length_eq
    revert hlength
    decide +kernel

end VoxBench.Observability
