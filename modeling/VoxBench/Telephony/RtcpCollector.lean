import VoxBench.Lib.Double
import VoxBench.Lib.NumberText
import VoxBench.Lib.Traverse
import VoxBench.Observability.Observer
import VoxBench.Telephony.AmiRtcp
import VoxBench.Telephony.CallClose

/-!
# Collecting RTCP reports

`AmiRtcpCollector.collect` logs into the manager interface, turns the RTCP events that follow into
figures of an RTP stream, and has each of them delivered before it reads on. It is the only user of
its observer. The bytes of the peer and what becomes of each send are arbitrary.

## Main definitions

* `rtcpFigures` — the figures of an event.
* `AmiRtcpCollector.collect` — a session, with the observer that it works on.

## Main results

* `collect_conserves` — whatever the peer sends and the transport does, figures are in range, and
  what is observed is delivered once and in order, or still pending after a failed delivery.
* `collect_delivers` — the reports of a peer that behaves are all delivered.
-/

namespace VoxBench.Telephony

open VoxBench.Lib VoxBench.ControlPlane VoxBench.Observability

def amiMaxReports : ℕ := 32

/-- What `collect` raises. -/
inductive CollectorError where
  | ami (e : AmiError)
  | valueError (message : String)
  | overflowError
  | limitOverrunError
  | osError
  deriving DecidableEq, Repr

def protocolError (message : String) : CollectorError := .ami (.protocol message)

def connectionError (message : String) : CollectorError := .ami (.connection message)

def deliveryFailed : CollectorError := connectionError "VoxBench observation delivery failed"

/-! ## The figures of an event -/

/-- The fields of the `RtpStats` of an event, but for its time. -/
structure RtcpFigures where
  jitterMs : Option PyFloat
  lossPct : Option PyFloat
  direction : RtpDirection
  rttMs : Option PyFloat
  deriving DecidableEq

def RtcpFigures.stats (figures : RtcpFigures) (ts : Datetime) : RtpStats where
  jitterMs := figures.jitterMs
  lossPct := figures.lossPct
  mos := none
  direction := some figures.direction
  rttMs := figures.rttMs
  ts := ts

/-- The float nearest to `q`. -/
def nearestFloat (q : ℚ) : PyFloat :=
  match roundDouble q with
  | some r => .finite r
  | none => if 0 ≤ q then .inf else .negInf

/-- A product with a positive number. -/
def scale (x : PyFloat) (k : ℚ) : PyFloat :=
  match x with
  | .finite r => nearestFloat (r * k)
  | .inf => .inf
  | .negInf => .negInf
  | .nan => .nan

/-- `_parse_int`. -/
def parseInt (value field : String) : Except CollectorError ℤ :=
  match intOfText value with
  | some n => .ok n
  | none => .error (protocolError ("AMI RTCP " ++ field ++ " was not an integer"))

/-- `_parse_float`. -/
def parseFloat (value field : String) : Except CollectorError ℚ :=
  match floatOfText value with
  | none => .error (protocolError ("AMI RTCP " ++ field ++ " was not numeric"))
  | some (.number q) =>
      match roundDouble q with
      | some r => .ok r
      | none => .error (protocolError ("AMI RTCP " ++ field ++ " was not finite"))
  | some (.infinity _) | some .nan =>
      .error (protocolError ("AMI RTCP " ++ field ++ " was not finite"))

/-- The loss of a report, in percent. -/
def lossOf (value : String) : Except CollectorError PyFloat :=
  match parseInt value "FractionLost" with
  | .error e => .error e
  | .ok fraction =>
      if 0 ≤ fraction ∧ fraction ≤ 255 then .ok (scale (nearestFloat (fraction / 256)) 100)
      else .error (protocolError "AMI RTCP loss value was outside the supported range")

/-- The jitter of a report, in milliseconds. -/
def jitterOf (clockRateHz : ℤ) (value : String) : Except CollectorError PyFloat :=
  match parseFloat value "IAJitter" with
  | .error e => .error e
  | .ok jitter =>
      if jitter < 0 then .error (protocolError "AMI RTCP jitter value was negative")
      else
        match roundDouble clockRateHz with
        | none => .error .overflowError
        | some rate => .ok (scale (nearestFloat (jitter / rate)) 1000)

/-- The round-trip time, in milliseconds. -/
def rttOf (value : String) : Except CollectorError PyFloat :=
  match parseFloat value "RTT" with
  | .error e => .error e
  | .ok rtt =>
      if rtt < 0 then .error (protocolError "AMI RTCP RTT value was negative")
      else .ok (nearestFloat (rtt * 1000))

/-- A field that may be missing. -/
def whenPresent (read : String → Except CollectorError PyFloat) :
    Option String → Except CollectorError (Option PyFloat)
  | none => .ok none
  | some value => (read value).map some

/-- `x > y`. -/
def exceeds : PyFloat → PyFloat → Bool
  | .finite a, .finite b => b < a
  | .inf, .finite _ | .inf, .negInf | .finite _, .negInf => true
  | _, _ => false

/-- `max(values, default=None)`. -/
def greatest : List PyFloat → Option PyFloat
  | [] => none
  | x :: xs => some (xs.foldl (fun m y => if exceeds y m then y else m) x)

/-- The event with its names in lower case. -/
def lowerNames (event : Headers) : Headers :=
  event.foldl (fun values f => Dict.set values (String.ofList (Text.lower f.1.toList)) f.2) []

/-- The loss and the jitter of a report. -/
def reportFigures (values : Headers) (clockRateHz : ℤ) (index : ℕ) :
    Except CollectorError (Option PyFloat × Option PyFloat) := do
  let loss ← whenPresent lossOf (Dict.get? values ("report" ++ index.repr ++ "fractionlost"))
  let jitter ← whenPresent (jitterOf clockRateHz)
    (Dict.get? values ("report" ++ index.repr ++ "iajitter"))
  return (loss, jitter)

/-- The direction of an RTCP event. -/
def eventDirection (values : Headers) : Option RtpDirection :=
  if Dict.get? values "event" = some "RTCPReceived" then some .received
  else if Dict.get? values "event" = some "RTCPSent" then some .sent
  else none

/-- The round-trip time, which only a received report has. -/
def roundTripOf (values : Headers) (direction : RtpDirection) :
    Except CollectorError (Option PyFloat) :=
  if direction = .received then whenPresent rttOf (Dict.get? values "rtt") else .ok none

/-- The figures of the reports of an event and of its round-trip time. -/
def combineReports (direction : RtpDirection) (reports : List (Option PyFloat × Option PyFloat))
    (rttMs : Option PyFloat) : Option RtcpFigures :=
  let jitterMs := greatest (reports.filterMap Prod.snd)
  let lossPct := greatest (reports.filterMap Prod.fst)
  if jitterMs = none ∧ lossPct = none ∧ rttMs = none then none
  else some { jitterMs, lossPct, direction, rttMs }

/-- `rtcp_event_to_stats`, without the time. -/
def rtcpFigures (event : Headers) (clockRateHz : ℤ) : Except CollectorError (Option RtcpFigures) :=
  if clockRateHz ≤ 0 then .error (.valueError "clock_rate_hz must be positive")
  else
    let values := lowerNames event
    match eventDirection values with
    | none => .ok none
    | some direction =>
        match parseInt ((Dict.get? values "reportcount").getD "0") "ReportCount" with
        | .error e => .error e
        | .ok reportCount =>
            if ¬ (0 ≤ reportCount ∧ reportCount ≤ amiMaxReports) then
              .error (protocolError "AMI RTCP report count was outside the supported range")
            else do
              let reports ← (List.range reportCount.toNat).mapM (reportFigures values clockRateHz)
              let rttMs ← roundTripOf values direction
              return combineReports direction reports rttMs

/-! ### Figures in range -/

/-- Neither negative nor `nan`. -/
def AtLeastZero : PyFloat → Prop
  | .finite q => 0 ≤ q
  | .inf => True
  | .negInf | .nan => False

/-- A loss of so many 256ths, in percent. -/
def IsLoss (x : PyFloat) : Prop := ∃ n : ℕ, n ≤ 255 ∧ x = .finite (n * 100 / 256)

/-- At least one figure, and all of them in range. -/
structure RtcpFigures.InRange (figures : RtcpFigures) : Prop where
  jitter : ∀ x ∈ figures.jitterMs, AtLeastZero x
  loss : ∀ x ∈ figures.lossPct, IsLoss x
  rtt : ∀ x ∈ figures.rttMs, AtLeastZero x ∧ figures.direction = .received
  some_figure : figures.jitterMs ≠ none ∨ figures.lossPct ≠ none ∨ figures.rttMs ≠ none

theorem atLeastZero_nearestFloat {q : ℚ} (h : 0 ≤ q) : AtLeastZero (nearestFloat q) := by
  delta nearestFloat
  rw [roundDouble_eq]
  by_cases hfits : |nearest q| < 2 ^ 1024
  · rw [if_pos hfits]
    exact nearest_nonneg h
  · rw [if_neg hfits]
    simp only [if_pos h]
    trivial

theorem atLeastZero_scale {x : PyFloat} {k : ℚ} (hx : AtLeastZero x) (hk : 0 ≤ k) :
    AtLeastZero (scale x k) := by
  cases x with
  | finite q => exact atLeastZero_nearestFloat (mul_nonneg hx hk)
  | inf => trivial
  | negInf => exact hx.elim
  | nan => exact hx.elim

/-- Percentages of 256ths are floats. -/
theorem scale_fraction : ∀ n < 256,
    scale (nearestFloat ((n : ℕ) / 256)) 100 = .finite ((n : ℕ) * 100 / 256) := by
  decide +kernel

theorem isLoss_of_lossOf {value : String} {x : PyFloat} (h : lossOf value = .ok x) : IsLoss x := by
  unfold lossOf at h
  split at h
  · cases h
  · rename_i fraction _
    split_ifs at h with hrange
    cases h
    obtain ⟨n, rfl⟩ := Int.eq_ofNat_of_zero_le hrange.1
    exact ⟨n, by omega, by simpa using scale_fraction n (by omega)⟩

theorem atLeastZero_of_jitterOf {clockRateHz : ℤ} (hrate : 0 < clockRateHz) {value : String}
    {x : PyFloat} (h : jitterOf clockRateHz value = .ok x) : AtLeastZero x := by
  unfold jitterOf at h
  split at h
  · cases h
  · rename_i jitter _
    split_ifs at h with hneg
    split at h
    · cases h
    · rename_i rate hround
      cases h
      have hrate' : 0 ≤ rate := by
        rw [roundDouble_eq] at hround
        split_ifs at hround
        cases hround
        exact nearest_nonneg (by exact_mod_cast hrate.le)
      exact atLeastZero_scale
        (atLeastZero_nearestFloat (div_nonneg (not_lt.mp hneg) hrate')) (by norm_num)

theorem atLeastZero_of_rttOf {value : String} {x : PyFloat} (h : rttOf value = .ok x) :
    AtLeastZero x := by
  unfold rttOf at h
  split at h
  · cases h
  · split_ifs at h with hneg
    cases h
    exact atLeastZero_nearestFloat (mul_nonneg (not_lt.mp hneg) (by norm_num))

theorem of_whenPresent {P : PyFloat → Prop} {read : String → Except CollectorError PyFloat}
    (hread : ∀ value x, read value = .ok x → P x) {value : Option String} {result : Option PyFloat}
    (h : whenPresent read value = .ok result) : ∀ x ∈ result, P x := by
  intro x hx
  cases value with
  | none =>
      cases h
      cases hx
  | some value =>
      simp only [whenPresent] at h
      cases hvalue : read value with
      | error e =>
          rw [hvalue] at h
          cases h
      | ok y =>
          rw [hvalue] at h
          cases h
          cases hx
          exact hread value _ hvalue

theorem mem_of_greatest {xs : List PyFloat} {x : PyFloat} (h : x ∈ greatest xs) : x ∈ xs := by
  have hfold : ∀ (ys : List PyFloat) (m : PyFloat),
      ys.foldl (fun m y => if exceeds y m then y else m) m ∈ m :: ys := by
    intro ys
    induction ys with
    | nil => exact fun m => List.mem_singleton_self m
    | cons y ys ih =>
        intro m
        have hmem := ih (if exceeds y m then y else m)
        rw [List.mem_cons] at hmem ⊢
        rcases hmem with hhead | htail
        · rw [List.foldl_cons, hhead]
          split_ifs
          · exact Or.inr List.mem_cons_self
          · exact Or.inl rfl
        · exact Or.inr (List.mem_cons_of_mem _ htail)
  cases xs with
  | nil => cases h
  | cons y ys =>
      cases h
      exact hfold ys y

/-- The reports of an event, each with figures in range. -/
theorem of_reportFigures {values : Headers} {clockRateHz : ℤ} (hrate : 0 < clockRateHz) {index : ℕ}
    {report : Option PyFloat × Option PyFloat}
    (h : reportFigures values clockRateHz index = .ok report) :
    (∀ x ∈ report.1, IsLoss x) ∧ ∀ x ∈ report.2, AtLeastZero x := by
  unfold reportFigures at h
  cases hloss : whenPresent lossOf
      (Dict.get? values ("report" ++ index.repr ++ "fractionlost")) with
  | error e => simp [hloss, bind, Except.bind] at h
  | ok loss =>
      cases hjitter : whenPresent (jitterOf clockRateHz)
          (Dict.get? values ("report" ++ index.repr ++ "iajitter")) with
      | error e => simp [hloss, hjitter, bind, Except.bind] at h
      | ok jitter =>
          obtain rfl : (loss, jitter) = report := by
            simpa [hloss, hjitter, bind, Except.bind, pure, Except.pure] using h
          exact ⟨of_whenPresent (fun _ _ => isLoss_of_lossOf) hloss,
            of_whenPresent (fun _ _ => atLeastZero_of_jitterOf hrate) hjitter⟩

theorem of_roundTripOf {values : Headers} {direction : RtpDirection} {rttMs : Option PyFloat}
    (h : roundTripOf values direction = .ok rttMs) :
    ∀ x ∈ rttMs, AtLeastZero x ∧ direction = .received := by
  unfold roundTripOf at h
  split_ifs at h with hdirection
  · exact fun x hx => ⟨of_whenPresent (fun _ _ => atLeastZero_of_rttOf) h x hx, hdirection⟩
  · cases h
    intro x hx
    cases hx

theorem inRange_combineReports {direction : RtpDirection}
    {reports : List (Option PyFloat × Option PyFloat)} {rttMs : Option PyFloat}
    {figures : RtcpFigures}
    (hreports : ∀ report ∈ reports, (∀ x ∈ report.1, IsLoss x) ∧ ∀ x ∈ report.2, AtLeastZero x)
    (hrtt : ∀ x ∈ rttMs, AtLeastZero x ∧ direction = .received)
    (h : combineReports direction reports rttMs = some figures) : figures.InRange := by
  simp only [combineReports] at h
  split_ifs at h with hnone
  cases h
  refine ⟨fun x hx => ?_, fun x hx => ?_, hrtt, ?_⟩
  · obtain ⟨report, hreport, hsnd⟩ := List.mem_filterMap.mp (mem_of_greatest hx)
    exact (hreports report hreport).2 x hsnd
  · obtain ⟨report, hreport, hfst⟩ := List.mem_filterMap.mp (mem_of_greatest hx)
    exact (hreports report hreport).1 x hfst
  · by_contra hall
    push Not at hall
    exact hnone hall

theorem inRange_rtcpFigures {event : Headers} {clockRateHz : ℤ} {figures : RtcpFigures}
    (h : rtcpFigures event clockRateHz = .ok (some figures)) : figures.InRange := by
  unfold rtcpFigures at h
  split_ifs at h with hrate
  dsimp only at h
  split at h
  · cases h
  · rename_i direction _
    split at h
    · cases h
    · rename_i reportCount _
      split_ifs at h with hcount
      cases hreports : (List.range reportCount.toNat).mapM
          (reportFigures (lowerNames event) clockRateHz) with
      | error e => simp [hreports, bind, Except.bind] at h
      | ok reports =>
          cases hrtt : roundTripOf (lowerNames event) direction with
          | error e => simp [hreports, hrtt, bind, Except.bind] at h
          | ok rttMs =>
              have hfigures : combineReports direction reports rttMs = some figures := by
                simpa [hreports, hrtt, bind, Except.bind, pure, Except.pure] using h
              refine inRange_combineReports (fun report hreport => ?_) (fun x hx => ?_) hfigures
              · obtain ⟨index, -, hindex⟩ := exists_of_mem_mapM hreports hreport
                exact of_reportFigures (not_le.mp hrate) hindex
              · exact of_roundTripOf hrtt x hx

/-! ## A session -/

/-- `_validate_action_value`. -/
def ValidActionValue (value : String) : Prop :=
  value ≠ "" ∧ '\r' ∉ value.toList ∧ '\n' ∉ value.toList

/-- A collector, with what its constructor has checked of the fields that a session uses. -/
structure AmiRtcpCollector where
  username : String
  secret : String
  clockRateHz : ℤ
  username_valid : ValidActionValue username
  secret_valid : ValidActionValue secret
  clock_pos : 0 < clockRateHz

/-- What happens around a session: whether the connection, the greeting and the login get through
in time, the clock at each of its readings, and which sends of each flush land. -/
structure CollectorEnv where
  connects : Bool
  greets : Bool
  drains : Bool
  clock : ℕ → Datetime
  lands : ℕ → ℕ → Bool

/-- The bytes of the login. -/
def AmiRtcpCollector.login (collector : AmiRtcpCollector) : List UInt8 :=
  ("Action: Login\r\n" ++ ("Username: " ++ collector.username ++ "\r\n") ++
    ("Secret: " ++ collector.secret ++ "\r\n") ++ "Events: on\r\n\r\n").toUTF8.toList

abbrev Observer := ObserverState Item

/-- `observe_metric`, with the value one. -/
def observeOne (o : Observer) (name : String) (ts : Datetime) : Observer :=
  (flushMachine Item).next o (.observe fun
    | .metrics => [⟨name, .finite 1, none, ts⟩]
    | _ => [])

/-- `observe_rtp_stats`. -/
def observeRtpStats (o : Observer) (stats : RtpStats) : Observer :=
  (flushMachine Item).next o (.observe fun
    | .rtpStats => [stats]
    | _ => [])

/-- `await asyncio.to_thread(observer.flush)`, and whether it raised. -/
def flushNow (lands : ℕ → Bool) (o : Observer) : Observer × Bool :=
  let o' := runFlush lands o
  (o', (o'.flushes[o.flushes.length]?).any fun p => p matches .raised)

section Session

variable {σ : Type*} (readline : σ → Except OverlongLine (List UInt8) × σ)
  (collector : AmiRtcpCollector) (env : CollectorEnv)

/-- `_authenticate`, over at most `n` messages: what is written, how it ends, and the reader. -/
def AmiRtcpCollector.authenticate (n : ℕ) (reader : σ) :
    List UInt8 × Option (Except CollectorError Unit) × σ :=
  if ¬ env.greets then ([], some (.error (connectionError "AMI did not send a greeting")), reader)
  else
    match readline reader with
    | (.error .valueError, reader) =>
        ([], some (.error (protocolError "AMI sent an overlong greeting")), reader)
    | (.error .limitOverrunError, reader) => ([], some (.error .limitOverrunError), reader)
    | (.ok greeting, reader) =>
        if greeting.length > amiMaxLineBytes ∨
            ¬ "Asterisk Call Manager/".toUTF8.toList <+: greeting then
          ([], some (.error (protocolError "AMI greeting was not recognized")), reader)
        else if ¬ env.drains then (collector.login, some (.error .osError), reader)
        else
          match awaitResponse readline n reader with
          | (answer, reader) =>
              (collector.login, answer.map fun result => result.mapError .ami, reader)

/-- The point of an event: its figures and its metric. -/
def observePoint (o : Observer) (collected : ℕ) (figures : RtcpFigures) : Observer :=
  observeOne (observeRtpStats o (figures.stats (env.clock (2 * collected + 1))))
    "asterisk_ami_rtcp_events" (env.clock (2 * collected + 2))

/-- The loop of `collect` over the events, over at most `n` messages. -/
def AmiRtcpCollector.collectLoop (maxEvents : Option ℤ) :
    ℕ → σ → Observer → ℕ → Observer × Option (Except CollectorError ℕ)
  | 0, _, o, _ => (o, none)
  | n + 1, reader, o, collected =>
      match readAmiMessage readline reader with
      | (.error e, _) => (o, some (.error (.ami e)))
      | (.ok none, _) =>
          (o, some (.error (connectionError "AMI connection ended while collecting events")))
      | (.ok (some message), reader) =>
          if ¬ isRtcpEvent message then collectLoop maxEvents n reader o collected
          else
            match rtcpFigures message collector.clockRateHz with
            | .error e => (o, some (.error e))
            | .ok none => collectLoop maxEvents n reader o collected
            | .ok (some figures) =>
                let flushed := flushNow (env.lands (collected + 1))
                  (observePoint env o collected figures)
                if flushed.2 then (flushed.1, some (.error deliveryFailed))
                else if ∃ m ∈ maxEvents, m ≤ collected + 1 then
                  (flushed.1, some (.ok (collected + 1)))
                else collectLoop maxEvents n reader flushed.1 (collected + 1)

/-- A session: what is written, the observer afterwards, and what is returned. -/
structure CollectorRun where
  written : List UInt8
  observer : Observer
  result : Option (Except CollectorError ℕ)

/-- `collect`, over at most `n` messages in each of its loops. -/
def AmiRtcpCollector.collect (maxEvents : Option ℤ) (n : ℕ) (reader : σ) (o : Observer) :
    CollectorRun :=
  if ∃ m ∈ maxEvents, m < 1 then
    ⟨[], o, some (.error (.valueError "max_events must be positive when provided"))⟩
  else if ¬ env.connects then
    ⟨[], o, some (.error (connectionError "AMI connection could not be established"))⟩
  else
    match collector.authenticate readline env n reader with
    | (written, none, _) => ⟨written, o, none⟩
    | (written, some (.error e), _) => ⟨written, o, some (.error e)⟩
    | (written, some (.ok ()), reader) =>
        let flushed := flushNow (env.lands 0)
          (observeOne o "asterisk_ami_rtcp_connected" (env.clock 0))
        if flushed.2 then ⟨written, flushed.1, some (.error deliveryFailed)⟩
        else
          let ended := collector.collectLoop readline env maxEvents n reader flushed.1 0
          ⟨written, ended.1, ended.2⟩

end Session

/-! ### What a session observes -/

/-- The items of an event, the one of that number. -/
def pointItems (env : CollectorEnv) (collected : ℕ) (figures : RtcpFigures) : ∀ k, List (Item k)
  | .rtpStats => [figures.stats (env.clock (2 * collected + 1))]
  | .metrics => [⟨"asterisk_ami_rtcp_events", .finite 1, none, env.clock (2 * collected + 2)⟩]
  | .audioChunks | .sipEvents | .timelineEvents => []

/-- The item of the login. -/
def connectedItems (env : CollectorEnv) : ∀ k, List (Item k)
  | .metrics => [⟨"asterisk_ami_rtcp_connected", .finite 1, none, env.clock 0⟩]
  | .audioChunks | .sipEvents | .rtpStats | .timelineEvents => []

/-- The items of a session with these events. -/
def sessionItems (env : CollectorEnv) (figures : List RtcpFigures) (k : ObservationKind) :
    List (Item k) :=
  connectedItems env k ++ figures.zipIdx.flatMap fun point => pointItems env point.2 point.1 k

/-- The figures of those events that have some. -/
def eventFigures (clockRateHz : ℤ) (events : List Headers) : List RtcpFigures :=
  events.filterMap fun event => (rtcpFigures event clockRateHz).toOption.join

theorem inRange_of_mem_eventFigures {clockRateHz : ℤ} {events : List Headers}
    {figures : RtcpFigures} (h : figures ∈ eventFigures clockRateHz events) : figures.InRange := by
  obtain ⟨event, -, hfigures⟩ := List.mem_filterMap.mp h
  cases hresult : rtcpFigures event clockRateHz with
  | error e =>
      rw [hresult] at hfigures
      cases hfigures
  | ok result =>
      rw [hresult] at hfigures
      obtain rfl : result = some figures := by simpa [Except.toOption] using hfigures
      exact inRange_rtcpFigures hresult

theorem sessionItems_append (env : CollectorEnv) (figures : List RtcpFigures)
    (next : RtcpFigures) (k : ObservationKind) :
    sessionItems env (figures ++ [next]) k =
      sessionItems env figures k ++ pointItems env figures.length next k := by
  simp [sessionItems, List.zipIdx_append]

theorem observed_observePoint (env : CollectorEnv) (o : Observer) (collected : ℕ)
    (figures : RtcpFigures) (k : ObservationKind) :
    (observePoint env o collected figures).observed k =
      o.observed k ++ pointItems env collected figures k := by
  cases k <;> simp [observePoint, observeOne, observeRtpStats, flushMachine, pointItems]

/-! ### Flushes of an observer of its own -/

/-- No flush is running, and the items are in order. -/
structure Idle (o : Observer) : Prop where
  ordered : o.Ordered
  ended : ∀ p ∈ o.flushes, p.ended = true

theorem idle_new (runId : String) : Idle (.new runId) where
  ordered := by
    simp [ObserverState.Ordered, ObserverState.new, ObserverState.delivered,
      ObserverState.inFlight]
  ended := by simp [ObserverState.new]

section Flushes

variable {o : Observer}

theorem Idle.observe (h : Idle o) (items : ∀ k, List (Item k)) :
    Idle ((flushMachine Item).next o (.observe items)) :=
  ⟨ordered_next (l := .observe items) trivial h.ordered, h.ended⟩

/-- Everything is delivered or pending. -/
theorem Idle.delivered_append_pending (h : Idle o) (k : ObservationKind) :
    o.delivered k ++ o.pending k = o.observed k := by
  have hk := h.ordered.2 k
  rwa [ObserverState.inFlight, flatMap_ended h.ended, List.append_nil] at hk

theorem observed_next {l : ObserverStep Item} (hl : ∀ items, l ≠ .observe items) :
    ((flushMachine Item).next o l).observed = o.observed := by
  cases l with
  | observe items => exact absurd rfl (hl items)
  | flush => rfl
  | send f delivers =>
      simp only [flushMachine]
      split
      · split <;> rfl
      · rfl
  | restore f =>
      simp only [flushMachine]
      split <;> rfl

theorem observed_exec {ls : List (ObserverStep Item)}
    (hls : ∀ l ∈ ls, ∀ items, l ≠ .observe items) :
    ((flushMachine Item).exec o ls).observed = o.observed := by
  induction ls generalizing o with
  | nil => rfl
  | cons l ls ih =>
      rw [Machine.exec_cons, ih fun l' hl' => hls l' (List.mem_cons_of_mem l hl'),
        observed_next (hls l List.mem_cons_self)]

theorem observed_runFlush (lands : ℕ → Bool) : (runFlush lands o).observed = o.observed := by
  have hflush := observed_next (o := o) (l := .flush) (by simp)
  rw [← hflush]
  refine observed_exec fun l hl => ?_
  rw [List.mem_append, List.mem_map, List.mem_singleton] at hl
  rcases hl with ⟨i, -, rfl⟩ | rfl <;> simp

/-- A flush that has just begun fails only by one of its sends. -/
theorem exists_not_lands {batches : List (ObservationBatch Item)} {n : ℕ} {lands : ℕ → Bool}
    (h : FlushFails (.loop batches n) lands) : ∃ i, lands i = false := by
  cases batches with
  | nil => exact h.elim
  | cons b rest =>
      obtain ⟨i, -, hi⟩ := h
      exact ⟨i, hi⟩

/-- A flush ends, and what it leaves pending it has raised for. -/
theorem flushNow_idle (h : Idle o) (lands : ℕ → Bool) :
    Idle (flushNow lands o).1 ∧ (flushNow lands o).1.observed = o.observed ∧
      ((flushNow lands o).2 = false → ∀ k, (flushNow lands o).1.pending k = []) ∧
      ((∀ i, lands i = true) → (flushNow lands o).2 = false) := by
  set o₁ := (flushMachine Item).next o .flush with ho₁
  have hordered : o₁.Ordered := ordered_next (l := .flush) h.ended h.ordered
  obtain ⟨batches, hbatches⟩ :
      ∃ batches, o₁.flushes = o.flushes ++ [FlushPhase.loop batches 0] := by
    by_cases hempty : o.snapshot.itemCount = 0
    · exact ⟨[], by simp [ho₁, flushMachine, hempty, FlushPhase.loop]⟩
    · exact ⟨boundedObservationBatches o.snapshot, by simp [ho₁, flushMachine, hempty]⟩
  have hp : o₁.flushes[o.flushes.length]? = some (.loop batches 0) := by
    rw [hbatches, List.getElem?_concat_length]
  have hlt : o.flushes.length < o₁.flushes.length := (List.getElem?_eq_some_iff.mp hp).1
  have hlen : o.flushes.length + 1 = o₁.flushes.length := by simp [hbatches]
  obtain ⟨last, hset, hended, hleft⟩ : ∃ last,
      (flushNow lands o).1.flushes = o₁.flushes.set o.flushes.length last ∧ last.ended = true ∧
        ((last = .raised ∧ ∃ i, lands i = false) ∨
          (∃ n, last = .returned n) ∧ ∀ k, (flushNow lands o).1.pending k = []) := by
    by_cases hfail : FlushFails (.loop batches 0) lands
    · exact ⟨.raised, settleFlush_raises hp hfail, rfl, Or.inl ⟨rfl, exists_not_lands hfail⟩⟩
    · obtain ⟨⟨n, hset⟩, hpending, -⟩ := settleFlush_returns hp hfail
      exact ⟨.returned n, hset, rfl, Or.inr ⟨⟨n, rfl⟩, fun k => congrFun hpending k⟩⟩
  have hlast : (flushNow lands o).1.flushes[o.flushes.length]? = some last := by
    rw [hset, List.getElem?_set_self hlt]
  have hflag : (flushNow lands o).2 = (some last).any fun p => p matches .raised := by
    rw [← hlast]
    rfl
  have hend : (flushNow lands o).1.Ordered := ordered_settleFlush hordered lands
  refine ⟨⟨hend, all_ended hend ?_ hlast hended⟩, observed_runFlush lands, ?_⟩
  · rw [hset, List.length_set, hlen]
  · rw [hflag]
    rcases hleft with ⟨rfl, i, hi⟩ | ⟨⟨n, rfl⟩, hpending⟩
    · refine ⟨fun h => absurd h (by simp), fun hlands => ?_⟩
      rw [hlands i] at hi
      cases hi
    · exact ⟨fun _ => hpending, fun _ => rfl⟩

end Flushes

/-! ### The loop -/

/-- Before a message is read: what was observed is delivered, and more of it is wanted. -/
structure Collecting (env : CollectorEnv) (maxEvents : Option ℤ) (o : Observer)
    (figures : List RtcpFigures) : Prop where
  idle : Idle o
  observed : ∀ k, o.observed k = sessionItems env figures k
  pending : ∀ k, o.pending k = []
  bound : ∀ m ∈ maxEvents, figures.length < m

/-- A session with these events has ended with `result`. -/
structure Collected (env : CollectorEnv) (maxEvents : Option ℤ) (o : Observer)
    (figures : List RtcpFigures) (result : Option (Except CollectorError ℕ)) : Prop where
  ended : ∀ p ∈ o.flushes, p.ended = true
  conserved : ∀ k, o.delivered k ++ o.pending k = sessionItems env figures k
  bound : ∀ m ∈ maxEvents, figures.length ≤ m
  count : ∀ m, result = some (.ok m) →
    maxEvents = some (m : ℤ) ∧ figures.length = m ∧ ∀ k, o.pending k = []
  undelivered : (∃ k, o.pending k ≠ []) → result = some (.error deliveryFailed)

section Loop

variable {env : CollectorEnv} {maxEvents : Option ℤ} {o : Observer} {figures : List RtcpFigures}

/-- The loop ends, but not by its count. -/
theorem Collecting.stop (h : Collecting env maxEvents o figures)
    {result : Option (Except CollectorError ℕ)} (hresult : ∀ m, result ≠ some (.ok m)) :
    Collected env maxEvents o figures result where
  ended := h.idle.ended
  conserved k := (h.idle.delivered_append_pending k).trans (h.observed k)
  bound m hm := (h.bound m hm).le
  count m hm := absurd hm (hresult m)
  undelivered := fun ⟨k, hk⟩ => absurd (h.pending k) hk

/-- An event is observed, and a flush of it ends. -/
theorem Collecting.point (h : Collecting env maxEvents o figures) (next : RtcpFigures)
    (lands : ℕ → Bool) :
    Idle (flushNow lands (observePoint env o figures.length next)).1 ∧
      (∀ k, (flushNow lands (observePoint env o figures.length next)).1.observed k =
        sessionItems env (figures ++ [next]) k) ∧
      ((flushNow lands (observePoint env o figures.length next)).2 = false →
        ∀ k, (flushNow lands (observePoint env o figures.length next)).1.pending k = []) ∧
      ((∀ i, lands i = true) →
        (flushNow lands (observePoint env o figures.length next)).2 = false) := by
  have hidle : Idle (observePoint env o figures.length next) := (h.idle.observe _).observe _
  obtain ⟨hafter, hobserved, hrest⟩ := flushNow_idle hidle lands
  refine ⟨hafter, fun k => ?_, hrest⟩
  rw [hobserved, observed_observePoint, h.observed, sessionItems_append]

/-- The loop goes on after an event that is delivered, while more of them are wanted. -/
theorem Collecting.next (h : Collecting env maxEvents o figures) (next : RtcpFigures)
    {lands : ℕ → Bool}
    (hflush : (flushNow lands (observePoint env o figures.length next)).2 = false)
    (hmore : ¬ ∃ m ∈ maxEvents, m ≤ figures.length + 1) :
    Collecting env maxEvents (flushNow lands (observePoint env o figures.length next)).1
      (figures ++ [next]) := by
  obtain ⟨hidle, hobserved, hpending, -⟩ := h.point next lands
  refine ⟨hidle, hobserved, hpending hflush, fun m hm => ?_⟩
  have hlt : ¬ m ≤ figures.length + 1 := fun hle => hmore ⟨m, hm, hle⟩
  rw [List.length_append, List.length_singleton]
  push_cast
  omega

/-- The loop ends after an event, with its count or with a failed delivery. -/
theorem Collecting.last (h : Collecting env maxEvents o figures) (next : RtcpFigures)
    {lands : ℕ → Bool} {result : Option (Except CollectorError ℕ)}
    (hcount : ∀ m, result = some (.ok m) → m = figures.length + 1 ∧
      (flushNow lands (observePoint env o figures.length next)).2 = false ∧
      ∃ m ∈ maxEvents, m ≤ figures.length + 1)
    (hfailed : (flushNow lands (observePoint env o figures.length next)).2 = true →
      result = some (.error deliveryFailed)) :
    Collected env maxEvents (flushNow lands (observePoint env o figures.length next)).1
      (figures ++ [next]) result := by
  obtain ⟨hidle, hobserved, hpending, -⟩ := h.point next lands
  refine ⟨hidle.ended, fun k => (hidle.delivered_append_pending k).trans (hobserved k),
    fun m hm => ?_, fun m hm => ?_, fun ⟨k, hk⟩ => ?_⟩
  · have := h.bound m hm
    rw [List.length_append, List.length_singleton]
    push_cast
    omega
  · obtain ⟨rfl, hflush, bound, hbound, hle⟩ := hcount m hm
    have hlt := h.bound bound hbound
    refine ⟨?_, by simp, hpending hflush⟩
    rw [Option.mem_def.mp hbound]
    push_cast
    exact congrArg some (by omega)
  · cases hflush : (flushNow lands (observePoint env o figures.length next)).2 with
    | true => exact hfailed hflush
    | false => exact absurd (hpending hflush k) hk

variable {σ : Type*} {readline : σ → Except OverlongLine (List UInt8) × σ}
  {collector : AmiRtcpCollector}

section Message

variable {n collected : ℕ} {reader reader' : σ} {message : Headers}
  (hread : readAmiMessage readline reader = (.ok (some message), reader'))
include hread

/-- A message without figures is passed over. -/
theorem collectLoop_skip
    (hskip : isRtcpEvent message = true → rtcpFigures message collector.clockRateHz = .ok none) :
    collector.collectLoop readline env maxEvents (n + 1) reader o collected =
      collector.collectLoop readline env maxEvents n reader' o collected := by
  simp only [AmiRtcpCollector.collectLoop, hread]
  by_cases hrtcp : isRtcpEvent message = true
  · rw [if_neg (not_not.mpr hrtcp), hskip hrtcp]
  · rw [if_pos hrtcp]

theorem eventFigures_skip
    (hskip : isRtcpEvent message = true → rtcpFigures message collector.clockRateHz = .ok none) :
    eventFigures collector.clockRateHz (events readline (n + 1) reader).1 =
      eventFigures collector.clockRateHz (events readline n reader').1 := by
  simp only [events, hread]
  by_cases hrtcp : isRtcpEvent message = true
  · simp [eventFigures, hrtcp, hskip hrtcp, Except.toOption]
  · simp [hrtcp]

variable (hrtcp : isRtcpEvent message = true)
include hrtcp

theorem collectLoop_error {e : CollectorError}
    (hfigures : rtcpFigures message collector.clockRateHz = .error e) :
    collector.collectLoop readline env maxEvents (n + 1) reader o collected =
      (o, some (.error e)) := by
  simp only [AmiRtcpCollector.collectLoop, hread, hrtcp, hfigures, not_true_eq_false, if_false]

/-- An event is observed and flushed, before the loop ends or goes on. -/
theorem collectLoop_point {next : RtcpFigures}
    (hfigures : rtcpFigures message collector.clockRateHz = .ok (some next)) :
    collector.collectLoop readline env maxEvents (n + 1) reader o collected =
      if (flushNow (env.lands (collected + 1)) (observePoint env o collected next)).2 then
        ((flushNow (env.lands (collected + 1)) (observePoint env o collected next)).1,
          some (.error deliveryFailed))
      else if ∃ m ∈ maxEvents, m ≤ collected + 1 then
        ((flushNow (env.lands (collected + 1)) (observePoint env o collected next)).1,
          some (.ok (collected + 1)))
      else collector.collectLoop readline env maxEvents n reader'
        (flushNow (env.lands (collected + 1)) (observePoint env o collected next)).1
        (collected + 1) := by
  simp only [AmiRtcpCollector.collectLoop, hread, hrtcp, hfigures, not_true_eq_false, if_false]

theorem eventFigures_point {next : RtcpFigures}
    (hfigures : rtcpFigures message collector.clockRateHz = .ok (some next)) :
    eventFigures collector.clockRateHz (events readline (n + 1) reader).1 =
      next :: eventFigures collector.clockRateHz (events readline n reader').1 := by
  simp only [events, hread, hrtcp, if_true]
  simp [eventFigures, hfigures, Except.toOption]

end Message

variable (readline collector) in
/-- From the head of the loop on, the figures of some first events are observed. -/
theorem collectLoop_collected (n : ℕ) (reader : σ) (h : Collecting env maxEvents o figures) :
    ∃ more, more <+: eventFigures collector.clockRateHz (events readline n reader).1 ∧
      Collected env maxEvents
        (collector.collectLoop readline env maxEvents n reader o figures.length).1
        (figures ++ more)
        (collector.collectLoop readline env maxEvents n reader o figures.length).2 := by
  induction n generalizing reader o figures with
  | zero =>
      refine ⟨[], List.nil_prefix, ?_⟩
      rw [List.append_nil]
      exact h.stop (by simp [AmiRtcpCollector.collectLoop])
  | succ n ih =>
      rcases hread : readAmiMessage readline reader with ⟨result, reader'⟩
      rcases result with e | _ | message
      · refine ⟨[], List.nil_prefix, ?_⟩
        simp only [AmiRtcpCollector.collectLoop, hread, List.append_nil]
        exact h.stop (by simp)
      · refine ⟨[], List.nil_prefix, ?_⟩
        simp only [AmiRtcpCollector.collectLoop, hread, List.append_nil]
        exact h.stop (by simp)
      -- What the loop does with a message depends on its figures.
      by_cases hskip : isRtcpEvent message = true →
          rtcpFigures message collector.clockRateHz = .ok none
      · rw [collectLoop_skip hread hskip, eventFigures_skip hread hskip]
        exact ih reader' h
      · push Not at hskip
        obtain ⟨hrtcp, hsome⟩ := hskip
        rcases hfigures : rtcpFigures message collector.clockRateHz with e | _ | next
        · refine ⟨[], List.nil_prefix, ?_⟩
          rw [collectLoop_error hread hrtcp hfigures, List.append_nil]
          exact h.stop (by simp)
        · exact absurd hfigures hsome
        · rw [collectLoop_point hread hrtcp hfigures, eventFigures_point hread hrtcp hfigures]
          split_ifs with hflush hlast
          · refine ⟨[next], List.cons_prefix_cons.mpr ⟨rfl, List.nil_prefix⟩, ?_⟩
            exact h.last next (by simp) fun _ => rfl
          · refine ⟨[next], List.cons_prefix_cons.mpr ⟨rfl, List.nil_prefix⟩, ?_⟩
            refine h.last next (fun m hm => ?_) fun htrue => absurd htrue hflush
            cases hm
            exact ⟨rfl, Bool.eq_false_of_not_eq_true hflush, hlast⟩
          · have hnext := h.next next (Bool.eq_false_of_not_eq_true hflush) hlast
            obtain ⟨more, hmore, hcollected⟩ := ih reader' hnext
            refine ⟨next :: more, List.cons_prefix_cons.mpr ⟨rfl, hmore⟩, ?_⟩
            rwa [List.length_append, List.length_singleton, List.append_assoc] at hcollected

end Loop

/-! ### Sessions that end -/

section Ends

variable {σ : Type*} {readline : σ → Except OverlongLine (List UInt8) × σ}
  {collector : AmiRtcpCollector} {env : CollectorEnv} {maxEvents : Option ℤ} {o : Observer}
  {rest : σ → List UInt8} (hlines : ReadsLines newline readline rest)
include hlines

theorem length_rest_awaitResponse {n : ℕ} {reader reader' : σ} {result : Except AmiError Unit}
    (h : awaitResponse readline n reader = (some result, reader')) (hok : result = .ok ()) :
    (rest reader').length ≤ (rest reader).length := by
  induction n generalizing reader with
  | zero => cases h
  | succ n ih =>
      rcases hread : readAmiMessage readline reader with ⟨message, reader₁⟩
      simp only [awaitResponse, hread] at h
      rcases message with e | _ | message
      · cases h
        cases hok
      · cases h
        cases hok
      · have hless := length_rest_of_message hlines hread
        dsimp only at h
        split at h
        · exact (ih h).trans hless.le
        · cases h
          exact hless.le

variable (collector env) in
/-- The login ends, and reads no more than there is. -/
theorem authenticate_ends {n : ℕ} {reader : σ} (hn : (rest reader).length < n) :
    (collector.authenticate readline env n reader).2.1.isSome ∧
      ((collector.authenticate readline env n reader).2.1 = some (.ok ()) →
        (rest (collector.authenticate readline env n reader).2.2).length ≤
          (rest reader).length) := by
  rcases hnext : nextLine newline (rest reader) with ⟨greeting, after⟩
  obtain ⟨reader₁, hread, hrest₁⟩ := hlines.eq_of_rest hnext
  have hless : (rest reader₁).length ≤ (rest reader).length := by
    rw [hrest₁, eq_append_of_nextLine hnext, List.length_append]
    omega
  rcases hanswer : awaitResponse readline n reader₁ with ⟨answer, reader₂⟩
  have hsome : (awaitResponse readline n reader₁).1.isSome :=
    awaitResponse_isSome hlines (by omega)
  rw [hanswer] at hsome
  obtain ⟨result, rfl⟩ := Option.isSome_iff_exists.mp hsome
  simp only [AmiRtcpCollector.authenticate, hread, hanswer]
  split_ifs
  · simp
  · refine ⟨rfl, fun hok => (length_rest_awaitResponse hlines hanswer ?_).trans hless⟩
    cases result with
    | error e => cases hok
    | ok => rfl
  · simp
  · simp

theorem collectLoop_isSome {n collected : ℕ} {reader : σ} (hn : (rest reader).length < n) :
    (collector.collectLoop readline env maxEvents n reader o collected).2.isSome := by
  induction n generalizing reader o collected with
  | zero => omega
  | succ n ih =>
      rcases hread : readAmiMessage readline reader with ⟨message, reader₁⟩
      rcases message with e | _ | message
      · simp [AmiRtcpCollector.collectLoop, hread]
      · simp [AmiRtcpCollector.collectLoop, hread]
      · have hless := length_rest_of_message hlines hread
        have hn' : (rest reader₁).length < n := by omega
        by_cases hskip : isRtcpEvent message = true →
            rtcpFigures message collector.clockRateHz = .ok none
        · rw [collectLoop_skip hread hskip]
          exact ih hn'
        · push Not at hskip
          obtain ⟨hrtcp, hsome⟩ := hskip
          rcases hfigures : rtcpFigures message collector.clockRateHz with e | _ | next
          · rw [collectLoop_error hread hrtcp hfigures]
            rfl
          · exact absurd hfigures hsome
          · rw [collectLoop_point hread hrtcp hfigures]
            split_ifs
            · rfl
            · rfl
            · exact ih hn'

end Ends

/-! ### Whole sessions -/

section Whole

variable {σ : Type*} (readline : σ → Except OverlongLine (List UInt8) × σ)
  (rest : σ → List UInt8) (hlines : ReadsLines newline readline rest)
  (collector : AmiRtcpCollector) (env : CollectorEnv)

/-- The metric of the login. -/
theorem observed_observeOne (runId : String) (k : ObservationKind) :
    (observeOne (.new runId) "asterisk_ami_rtcp_connected" (env.clock 0)).observed k =
      sessionItems env [] k := by
  cases k <;> rfl

theorem idle_observeOne (runId : String) :
    Idle (observeOne (.new runId) "asterisk_ami_rtcp_connected" (env.clock 0)) :=
  (idle_new runId).observe _

/-- After the login its metric is flushed, and the loop begins. -/
theorem login_collecting {maxEvents : Option ℤ} {runId : String} {o : Observer} {raised : Bool}
    (hpositive : ¬ ∃ m ∈ maxEvents, m < 1)
    (hflush : flushNow (env.lands 0)
      (observeOne (.new runId) "asterisk_ami_rtcp_connected" (env.clock 0)) = (o, raised)) :
    (raised = true → Collected env maxEvents o [] (some (.error deliveryFailed))) ∧
      (raised = false → Collecting env maxEvents o []) := by
  obtain ⟨hidle, hobserved, hpending, -⟩ :=
    flushNow_idle (idle_observeOne env runId) (env.lands 0)
  rw [hflush] at hidle hobserved hpending
  have hitems : ∀ k, o.observed k = sessionItems env [] k :=
    fun k => (congrFun hobserved k).trans (observed_observeOne env runId k)
  have hbound : ∀ m ∈ maxEvents, ((([] : List RtcpFigures).length : ℕ) : ℤ) < m := by
    intro m hm
    have hlt : ¬ m < 1 := fun hlt => hpositive ⟨m, hm, hlt⟩
    rw [List.length_nil]
    push_cast
    omega
  constructor
  · intro _
    exact ⟨hidle.ended, fun k => (hidle.delivered_append_pending k).trans (hitems k),
      fun m hm => (hbound m hm).le, by simp, fun _ => rfl⟩
  · exact fun hdelivered => ⟨hidle, hitems, hpending hdelivered, hbound⟩

include hlines in
/-- What the peer sends, where it stops and which sends get through are arbitrary. A session that is
not logged in observes nothing. One that is logged in observes the figures of some first events, in
their order and all of them in range; it delivers each of its items once and in order, but for what
is pending after a failed delivery, which it reports; and what it returns is the number of events
that was asked for. Every session ends, since the peer closes in the end: what it sends is a list of
bytes, of which `readline` takes lines within its limit. -/
theorem collect_conserves (maxEvents : Option ℤ) (n : ℕ) (reader : σ) (runId : String) :
    let login := collector.authenticate readline env n reader
    let run := collector.collect readline env maxEvents n reader (.new runId)
    (run.observer = .new runId ∧ (∀ m, run.result ≠ some (.ok m)) ∨
      login.2.1 = some (.ok ()) ∧ ∃ figures,
        figures <+: eventFigures collector.clockRateHz (events readline n login.2.2).1 ∧
        (∀ point ∈ figures, point.InRange) ∧
        Collected env maxEvents run.observer figures run.result) ∧
    ((rest reader).length < n → run.result.isSome) := by
  intro login run
  have hlogin : login = collector.authenticate readline env n reader := rfl
  have hrun : run = collector.collect readline env maxEvents n reader (.new runId) := rfl
  clear_value run
  unfold AmiRtcpCollector.collect at hrun
  by_cases hpositive : ∃ m ∈ maxEvents, m < 1
  · rw [if_pos hpositive] at hrun
    rw [hrun]
    exact ⟨Or.inl ⟨rfl, by simp⟩, fun _ => rfl⟩
  rw [if_neg hpositive] at hrun
  by_cases hconnects : env.connects = true
  swap
  · rw [if_pos hconnects] at hrun
    rw [hrun]
    exact ⟨Or.inl ⟨rfl, by simp⟩, fun _ => rfl⟩
  rw [if_neg (not_not.mpr hconnects), ← hlogin] at hrun
  have hends := fun hn : (rest reader).length < n => authenticate_ends collector env hlines hn
  rw [← hlogin] at hends
  clear_value login
  obtain ⟨written, result, reader'⟩ := login
  rcases result with _ | e | ⟨⟩
  · rw [hrun]
    exact ⟨Or.inl ⟨rfl, by simp⟩, fun hn => absurd (hends hn).1 (by simp)⟩
  · rw [hrun]
    exact ⟨Or.inl ⟨rfl, by simp⟩, fun _ => rfl⟩
  rcases hflush : flushNow (env.lands 0)
    (observeOne (.new runId) "asterisk_ami_rtcp_connected" (env.clock 0)) with ⟨o, raised⟩
  obtain ⟨hraised, hstart⟩ := login_collecting env hpositive hflush
  simp only [hflush] at hrun
  cases raised with
  | true =>
      rw [if_pos rfl] at hrun
      rw [hrun]
      exact ⟨Or.inr ⟨rfl, [], List.nil_prefix, by simp, hraised rfl⟩, fun _ => rfl⟩
  | false =>
      obtain ⟨figures, hfigures, hcollected⟩ :=
        collectLoop_collected readline collector n reader' (hstart rfl)
      rw [if_neg Bool.false_ne_true] at hrun
      rw [hrun]
      refine ⟨Or.inr ⟨rfl, figures, hfigures, fun point hpoint => ?_, hcollected⟩, fun hn => ?_⟩
      · exact inRange_of_mem_eventFigures (hfigures.subset hpoint)
      · exact collectLoop_isSome hlines (((hends hn).2 rfl).trans_lt hn)

end Whole

/-- A collector of telephone audio. -/
def telephoneCollector : AmiRtcpCollector where
  username := "monitor"
  secret := "secret"
  clockRateHz := 8000
  username_valid := ⟨by decide, by decide, by decide⟩
  secret_valid := ⟨by decide, by decide, by decide⟩
  clock_pos := by decide

/-- Everything gets through, at one time. -/
def reachable : CollectorEnv where
  connects := true
  greets := true
  drains := true
  clock _ := ⟨0, some 0⟩
  lands _ _ := true

/-- The control plane is gone after a first flush. -/
def reachableOnce : CollectorEnv := { reachable with lands := fun f _ => f = 0 }

/-- The login is reported, and its first event is not. -/
theorem collect_conserves_unreachable :
    let readline : Stream UInt8 → Except OverlongLine (List UInt8) × Stream UInt8 :=
      Stream.readline newline
    let reader := Stream.ofChunks [
      "Asterisk Call Manager/1.0\r\nResponse: Success\r\n\r\nEv".toUTF8.toList,
      "ent: RTCPReceived\r\nReportCount: 1\r\nReport0FractionLost: 64\r\n\r\n".toUTF8.toList]
    let run := telephoneCollector.collect readline reachableOnce none 4 reader (.new "run")
    run.result = some (.error deliveryFailed) ∧ run.observer.pending .rtpStats =
        [⟨none, some (.finite 25), none, some .received, none, ⟨0, some 0⟩⟩] ∧
      ∃ figures, Collected reachableOnce none run.observer figures run.result := by
  intro readline reader run
  have hobserved : run.observer.pending .rtpStats =
      [⟨none, some (.finite 25), none, some .received, none, ⟨0, some 0⟩⟩] := by
    decide +kernel
  rcases (collect_conserves readline Stream.rest (Stream.readsLines newline) telephoneCollector
    reachableOnce none 4 reader "run").1 with ⟨hnew, -⟩ | ⟨-, figures, -, -, hcollected⟩
  · have hnone : run.observer.pending .rtpStats = [] := congrArg (fun o => o.pending .rtpStats) hnew
    exact absurd (hobserved.symm.trans hnone) (List.cons_ne_nil _ _)
  · have hpending : run.observer.pending .rtpStats ≠ [] :=
      fun hnone => List.cons_ne_nil _ _ (hobserved.symm.trans hnone)
    exact ⟨hcollected.undelivered ⟨.rtpStats, hpending⟩, hobserved, figures, hcollected⟩

/-! ### A peer that behaves -/

/-- What a peer sends that accepts the login: its greeting, what comes before its answer, the answer
and the messages of the session. -/
structure AmiServer where
  version : List UInt8
  skipped : List AmiBlock
  answer : AmiBlock
  messages : List AmiBlock
  one_line : newline ∉ version
  short : ("Asterisk Call Manager/".toUTF8.toList ++ version ++ [newline]).length ≤ amiMaxLineBytes
  skipped_silent : ∀ block ∈ skipped, header block.headers "Response" = none
  accepts : ∃ response, header answer.headers "Response" = some response ∧
    loginResult response = .ok ()

namespace AmiServer

variable (server : AmiServer)

def greeting : List UInt8 := "Asterisk Call Manager/".toUTF8.toList ++ server.version ++ [newline]

def bytes : List UInt8 :=
  server.greeting ++ encode (server.skipped ++ server.answer :: server.messages)

/-- The events that the session is about. -/
def rtcpEvents : List Headers := (server.messages.map AmiBlock.headers).filter isRtcpEvent

end AmiServer

/-- Everything gets through. -/
structure CollectorEnv.Clear (env : CollectorEnv) : Prop where
  connects : env.connects = true
  greets : env.greets = true
  drains : env.drains = true
  lands : ∀ f i, env.lands f i = true

/-- The first `maxEvents` figures. -/
def upTo (maxEvents : Option ℤ) (figures : List RtcpFigures) : List RtcpFigures :=
  match maxEvents with
  | some m => figures.take m.toNat
  | none => figures

/-- How a session ends whose peer has sent that many events and closed. -/
def ending (maxEvents : Option ℤ) (count : ℕ) : Except CollectorError ℕ :=
  match maxEvents with
  | some m =>
      if m ≤ count then .ok m.toNat
      else .error (connectionError "AMI connection ended while collecting events")
  | none => .error (connectionError "AMI connection ended while collecting events")

section Behaves

variable {env : CollectorEnv} {maxEvents : Option ℤ} {o : Observer} {done : List RtcpFigures}

theorem upTo_of_lt (h : ∀ m ∈ maxEvents, (done.length : ℤ) < m) : upTo maxEvents done = done := by
  cases maxEvents with
  | none => rfl
  | some m =>
      have hlt := h m rfl
      exact List.take_of_length_le (by omega)

theorem ending_of_lt {count : ℕ} (h : ∀ m ∈ maxEvents, (count : ℤ) < m) :
    ending maxEvents count =
      .error (connectionError "AMI connection ended while collecting events") := by
  cases maxEvents with
  | none => rfl
  | some m => exact if_neg (not_le.mpr (h m rfl))

/-- The loop has its last event. -/
theorem last_server (h : Collecting env maxEvents o done) (next : RtcpFigures)
    (later : List RtcpFigures) {lands : ℕ → Bool}
    (hflush : (flushNow lands (observePoint env o done.length next)).2 = false)
    (hlast : ∃ m ∈ maxEvents, m ≤ done.length + 1) :
    ((flushNow lands (observePoint env o done.length next)).1,
        (some (.ok (done.length + 1)) : Option (Except CollectorError ℕ))) =
      ((flushNow lands (observePoint env o done.length next)).1,
        some (ending maxEvents (done ++ next :: later).length)) ∧
      Idle (flushNow lands (observePoint env o done.length next)).1 ∧
      (∀ k, (flushNow lands (observePoint env o done.length next)).1.observed k =
        sessionItems env (upTo maxEvents (done ++ next :: later)) k) ∧
      ∀ k, (flushNow lands (observePoint env o done.length next)).1.pending k = [] := by
  obtain ⟨hidle, hobserved, hpending, -⟩ := h.point next lands
  obtain ⟨m, hm, hle⟩ := hlast
  have hlt := h.bound m hm
  obtain rfl := Option.mem_def.mp hm
  obtain rfl : m = ((done.length + 1 : ℕ) : ℤ) := by
    push_cast
    omega
  have hcount : ((done.length + 1 : ℕ) : ℤ) ≤ (done ++ next :: later).length := by
    rw [List.length_append, List.length_cons]
    push_cast
    omega
  have htake : upTo (some ((done.length + 1 : ℕ) : ℤ)) (done ++ next :: later) =
      done ++ [next] := by
    simp only [upTo, Int.toNat_natCast]
    rw [List.take_length_add_append]
    rfl
  refine ⟨?_, hidle, fun k => ?_, hpending hflush⟩
  · rw [ending, if_pos hcount, Int.toNat_natCast]
  · rw [htake]
    exact hobserved k

variable {σ : Type*} {readline : σ → Except OverlongLine (List UInt8) × σ} {rest : σ → List UInt8}
  (hlines : ReadsLines newline readline rest) {collector : AmiRtcpCollector}
include hlines

variable (collector) in
theorem authenticate_server {server : AmiServer} {n : ℕ} {reader : σ} (henv : env.Clear)
    (hrest : rest reader = server.bytes) (hn : server.skipped.length < n) :
    ∃ reader', collector.authenticate readline env n reader =
        (collector.login, some (.ok ()), reader') ∧ rest reader' = encode server.messages := by
  have hnext : nextLine newline (rest reader) =
      (server.greeting, encode (server.skipped ++ server.answer :: server.messages)) := by
    have hbody : newline ∉ "Asterisk Call Manager/".toUTF8.toList ++ server.version := by
      rw [List.mem_append, not_or]
      exact ⟨by decide +kernel, server.one_line⟩
    rw [hrest, AmiServer.bytes, AmiServer.greeting, List.append_assoc, List.singleton_append,
      nextLine_append_mark hbody]
  obtain ⟨reader₁, hread, hrest₁⟩ := hlines.eq_of_rest hnext
  obtain ⟨response, hresponse, hsuccess⟩ := server.accepts
  obtain ⟨reader', hanswer, hlater⟩ :=
    awaitResponse_encode hlines server.skipped_silent hresponse hrest₁ hn
  refine ⟨reader', ?_, hlater⟩
  have hgreeting : ¬ (server.greeting.length > amiMaxLineBytes ∨
      ¬ "Asterisk Call Manager/".toUTF8.toList <+: server.greeting) := by
    rintro (hlong | hother)
    · exact absurd server.short (not_le.mpr hlong)
    · refine hother ?_
      rw [AmiServer.greeting, List.append_assoc]
      exact List.prefix_append _ _
  simp only [AmiRtcpCollector.authenticate, hread, henv.greets, henv.drains, not_true_eq_false,
    if_false, if_neg hgreeting, hanswer, hsuccess]
  rfl

/-- From the head of the loop on, the events of a peer that behaves are delivered. -/
theorem collectLoop_server {messages : List AmiBlock} {figures : List RtcpFigures} {n : ℕ}
    {reader : σ} (henv : env.Clear) (hrest : rest reader = encode messages)
    (hfigures : collect (fun event => rtcpFigures event collector.clockRateHz)
      ((messages.map AmiBlock.headers).filter isRtcpEvent) = .ok figures)
    (h : Collecting env maxEvents o done) (hn : messages.length < n) :
    ∃ o', collector.collectLoop readline env maxEvents n reader o done.length =
        (o', some (ending maxEvents (done ++ figures).length)) ∧
      Idle o' ∧ (∀ k, o'.observed k = sessionItems env (upTo maxEvents (done ++ figures)) k) ∧
      ∀ k, o'.pending k = [] := by
  induction messages generalizing n reader o done figures with
  | nil =>
      obtain ⟨n, rfl⟩ := Nat.exists_eq_add_of_lt hn
      obtain rfl : [] = figures := Except.ok.inj hfigures
      have hend := readAmiMessage_end hlines hrest
      rcases hread : readAmiMessage readline reader with ⟨result, reader'⟩
      rw [hread] at hend
      obtain rfl : result = .ok none := hend
      refine ⟨o, ?_, h.idle, fun k => ?_, h.pending⟩
      · rw [List.append_nil, ending_of_lt h.bound]
        simp only [AmiRtcpCollector.collectLoop, hread]
      · rw [List.append_nil, upTo_of_lt h.bound]
        exact h.observed k
  | cons block messages ih =>
      obtain ⟨n, rfl⟩ : ∃ n', n = n' + 1 := ⟨n - 1, by omega⟩
      have hn' : messages.length < n := by simpa using hn
      rw [encode, List.flatMap_cons] at hrest
      obtain ⟨reader₁, hread, hafter⟩ := readAmiMessage_block hlines hrest
      by_cases hrtcp : isRtcpEvent block.headers = true
      · rw [List.map_cons, List.filter_cons_of_pos hrtcp, collect_cons] at hfigures
        cases hpoint : rtcpFigures block.headers collector.clockRateHz with
        | error e =>
            rw [hpoint] at hfigures
            cases hfigures
        | ok point =>
            cases hlater : collect (fun event => rtcpFigures event collector.clockRateHz)
                ((messages.map AmiBlock.headers).filter isRtcpEvent) with
            | error e =>
                rw [hpoint, hlater] at hfigures
                cases hfigures
            | ok later =>
                obtain rfl : point.toList ++ later = figures := by
                  simpa [hpoint, hlater, Except.bind, Except.map] using hfigures
                cases point with
                | none =>
                    rw [collectLoop_skip hread fun _ => hpoint]
                    exact ih hafter hlater h hn'
                | some next =>
                    have hflush := (h.point next (env.lands (done.length + 1))).2.2.2
                      (henv.lands (done.length + 1))
                    rw [collectLoop_point hread hrtcp hpoint, if_neg (by simp [hflush])]
                    by_cases hlast : ∃ m ∈ maxEvents, m ≤ done.length + 1
                    · rw [if_pos hlast]
                      exact ⟨_, last_server h next later hflush hlast⟩
                    · rw [if_neg hlast]
                      obtain ⟨o', hloop, hrest'⟩ := ih hafter hlater (h.next next hflush hlast) hn'
                      rw [List.length_append, List.length_singleton, List.append_assoc] at hloop
                      rw [List.append_assoc] at hrest'
                      exact ⟨o', hloop, hrest'⟩
      · rw [List.map_cons, List.filter_cons_of_neg hrtcp] at hfigures
        rw [collectLoop_skip hread fun htrue => absurd htrue hrtcp]
        exact ih hafter hfigures h hn'

end Behaves

section Behaves

variable {σ : Type*} (readline : σ → Except OverlongLine (List UInt8) × σ)
  (rest : σ → List UInt8) (hlines : ReadsLines newline readline rest)
  (collector : AmiRtcpCollector) (env : CollectorEnv)
include hlines

/-- A peer that accepts the login and sends well-formed messages has the figures of its events, which
all parse, delivered, up to the number that was asked for, each of them once and in their order. -/
theorem collect_delivers (server : AmiServer) (figures : List RtcpFigures) (maxEvents : Option ℤ)
    (n : ℕ) (reader : σ) (runId : String) (henv : env.Clear) (hrest : rest reader = server.bytes)
    (hfigures : collect (fun event => rtcpFigures event collector.clockRateHz) server.rtcpEvents =
      .ok figures)
    (hpositive : ∀ m ∈ maxEvents, 1 ≤ m)
    (hn : server.skipped.length + server.messages.length < n) :
    let run := collector.collect readline env maxEvents n reader (.new runId)
    run.written = collector.login ∧ run.result = some (ending maxEvents figures.length) ∧
      (∀ k, run.observer.delivered k = sessionItems env (upTo maxEvents figures) k) ∧
      ∀ k, run.observer.pending k = [] := by
  intro run
  have hpositive' : ¬ ∃ m ∈ maxEvents, m < 1 := fun ⟨m, hm, hlt⟩ => by
    have := hpositive m hm
    omega
  have hrun : run = collector.collect readline env maxEvents n reader (.new runId) := rfl
  clear_value run
  obtain ⟨reader', hlogin, hlater⟩ :=
    authenticate_server hlines collector henv hrest (n := n) (by omega)
  rcases hflush : flushNow (env.lands 0)
    (observeOne (.new runId) "asterisk_ami_rtcp_connected" (env.clock 0)) with ⟨o, raised⟩
  obtain ⟨-, hstart⟩ := login_collecting env hpositive' hflush
  obtain rfl : raised = false := by
    have hlands := (flushNow_idle (idle_observeOne env runId) (env.lands 0)).2.2.2 (henv.lands 0)
    rwa [hflush] at hlands
  obtain ⟨o', hloop, hidle, hobserved, hpending⟩ :=
    collectLoop_server hlines henv hlater hfigures (hstart rfl) (n := n) (by omega)
  rw [List.length_nil, List.nil_append] at hloop
  rw [List.nil_append] at hobserved
  rw [AmiRtcpCollector.collect, if_neg hpositive', if_neg (not_not.mpr henv.connects)] at hrun
  simp only [hlogin, hflush, hloop, Bool.false_eq_true, if_false] at hrun
  rw [hrun]
  refine ⟨rfl, rfl, fun k => ?_, hpending⟩
  have hk := hidle.delivered_append_pending k
  rwa [hpending k, List.append_nil, hobserved k] at hk

end Behaves

def eventHeader : AmiHeader where
  name := "Event"
  value := "RTCPReceived"
  lineEnd := .crlf
  name_ne := by decide
  name_trimmed := by decide +kernel
  name_plain := by decide
  value_trimmed := by decide +kernel
  value_plain := by decide

def reportCountHeader : AmiHeader where
  name := "ReportCount"
  value := "1"
  lineEnd := .crlf
  name_ne := by decide
  name_trimmed := by decide +kernel
  name_plain := by decide
  value_trimmed := by decide +kernel
  value_plain := by decide

def fractionLostHeader : AmiHeader where
  name := "Report0FractionLost"
  value := "64"
  lineEnd := .crlf
  name_ne := by decide
  name_trimmed := by decide +kernel
  name_plain := by decide
  value_trimmed := by decide +kernel
  value_plain := by decide

/-- A report of a loss of a quarter. -/
def lossReport : AmiBlock where
  lines := [eventHeader, reportCountHeader, fractionLostHeader]
  blank := .crlf
  distinct := by decide
  count_le := by decide
  lines_fit := by decide +kernel
  fits := by decide +kernel

/-- A peer that reports it twice. -/
def lossyServer : AmiServer where
  version := "1.0\r".toUTF8.toList
  skipped := []
  answer := loginAnswer
  messages := [lossReport, lossReport]
  one_line := by decide +kernel
  short := by decide +kernel
  skipped_silent := by simp
  accepts := ⟨"Success", by decide +kernel, by decide +kernel⟩

/-- The first of the two reports is delivered. -/
theorem collect_delivers_lossReport :
    let run := telephoneCollector.collect (Stream.readline newline) reachable (some 1) 3
      (Stream.ofChunks [lossyServer.bytes]) (.new "run")
    run.result = some (.ok 1) ∧ run.observer.delivered .rtpStats =
      [⟨none, some (.finite 25), none, some .received, none, ⟨0, some 0⟩⟩] := by
  have hfigures : collect (fun event => rtcpFigures event telephoneCollector.clockRateHz)
      lossyServer.rtcpEvents = .ok [⟨none, some (.finite 25), .received, none⟩,
        ⟨none, some (.finite 25), .received, none⟩] := by
    decide +kernel
  obtain ⟨-, hresult, hdelivered, -⟩ := collect_delivers (Stream.readline newline) Stream.rest
    (Stream.readsLines newline) telephoneCollector reachable lossyServer _ (some 1) 3
    (Stream.ofChunks [lossyServer.bytes]) "run" ⟨rfl, rfl, rfl, fun _ _ => rfl⟩
    (by rw [Stream.rest_ofChunks, List.flatten_singleton]) hfigures (by simp) (by decide)
  exact ⟨hresult, hdelivered .rtpStats⟩

end VoxBench.Telephony
