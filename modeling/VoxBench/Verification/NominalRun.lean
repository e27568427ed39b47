import VoxBench.EngineHarness.Harness
import VoxBench.Verification.ExecuteRun

/-!
# Nominal runs

The files that the harness writes are silent and have the nominal duration, up to the rounding of
the number of frames, whatever the config: also where two stages name one file, since the file
that stays is nominal too. The verification of such a run reads them back by their URIs.

## Main definitions

* `diskFiles` — what the verification reads from the disk of the harness.
* `FitsRate` — a rate at which the nominal duration is nearly a whole number of frames.
* `Counts` — the numbers of frames that the floats can give it.

## Main results

* `durationMs_bounds` — the duration of a nominal file.
* `nominal_run_verified` — which configs can be run, and that the run is verified.
-/

namespace VoxBench.Verification

open VoxBench.Lib VoxBench.ControlPlane VoxBench.Media VoxBench.Observability VoxBench.EngineHarness
open PosixPath

/-! ## Reading the files of the harness -/

/-- What `wave.open` reads of a file that the harness wrote. -/
def openedWav (file : SilentWav) : WavFile where
  nchannels := file.channels.toNat
  sampwidth := file.sampleWidth
  nframes := file.frames.length / (file.sampleWidth * file.channels.toNat)
  framerate := file.frameRate.toNat
  frames := file.frames

/-- The files of a disk, by their URIs. A `ValueError` and a missing file are caught. -/
def diskFiles (check : Url.NetlocCheck) (decoder : Utf8Decoder) (disk : Disk) : WavFiles := fun uri =>
  match fileUriToPath check decoder uri with
  | .error _ => .error .unreadable
  | .ok path =>
      match disk.files (place path) with
      | some file => .ok (openedWav file)
      | none => .error .unreadable

/-- The file that a recording names is the one that is read. -/
theorem diskFiles_names (check : Url.NetlocCheck) (decoder : Utf8Decoder) {disk : Disk}
    {recording : RecordingArtifact} {file : SilentWav} (h : Names disk recording file) :
    diskFiles check decoder disk recording.uri = .ok (openedWav file) := by
  obtain ⟨path, hpath, habsolute, huri, hdisk⟩ := h
  simp only [diskFiles, huri, (readers_asUri check decoder hpath habsolute).2.1, hdisk]

theorem unpackSamples_zeros (n : ℕ) : ∀ v ∈ unpackSamples (List.replicate n 0), v = 0 := by
  induction n using Nat.twoStepInduction with
  | zero => simp [unpackSamples]
  | one => simp [unpackSamples]
  | more n ih _ =>
      intro v hv
      rw [List.replicate_succ, List.replicate_succ, unpackSamples] at hv
      rcases List.mem_cons.mp hv with rfl | hv
      · decide
      · exact ih v hv

section NominalFiles

variable {durationMs : ℚ} {file : SilentWav}

theorem length_frames (h : NominalFile durationMs file) :
    file.frames.length =
      frameCount file.frameRate durationMs * (file.sampleWidth * file.channels.toNat) := by
  rw [h.frames, List.length_flatten, List.map_replicate, List.sum_replicate_nat,
    length_silenceFrame file.channels h.width]

theorem frameSize_pos (h : NominalFile durationMs file) :
    0 < file.sampleWidth * file.channels.toNat := by
  have hchannels := h.channels_pos
  rcases h.width with hwidth | hwidth <;> rw [hwidth] <;> omega

/-- Both bytes of every sample of a 16-bit file are zero. -/
theorem frames_eq_replicate (h : NominalFile durationMs file) (hwidth : file.sampleWidth = 2) :
    file.frames = List.replicate file.frames.length 0 := by
  rw [List.eq_replicate_iff]
  refine ⟨rfl, fun b hb => ?_⟩
  rw [h.frames, List.mem_flatten] at hb
  obtain ⟨frame, hframe, hb⟩ := hb
  rw [(List.mem_replicate.mp hframe).2, hwidth] at hb
  exact (List.mem_replicate.mp hb).2

/-- A nominal file is read, and is silent. -/
theorem readWavStats_nominal {files : WavFiles} {recording : RecordingArtifact}
    (h : NominalFile durationMs file) (hfile : files recording.uri = .ok (openedWav file)) :
    ∃ stats, readWavStats files recording = .ok stats ∧ stats.power ≤ 0 ∧
      stats.durationMs = nearest (nearest (frameCount file.frameRate durationMs / file.frameRate) *
        1000) := by
  have hrate : 0 < (openedWav file).framerate := by
    have hpos := h.rate_pos
    simp only [openedWav]
    omega
  have hduration : ((openedWav file).nframes : ℚ) / (openedWav file).framerate =
      frameCount file.frameRate durationMs / file.frameRate := by
    have hcast : ((file.frameRate.toNat : ℕ) : ℚ) = file.frameRate := by
      exact_mod_cast Int.toNat_of_nonneg h.rate_pos.le
    simp only [openedWav, length_frames h, Nat.mul_div_cancel _ (frameSize_pos h), hcast]
  simp only [readWavStats, hfile, bind, Except.bind, if_pos hrate, hduration]
  by_cases hempty : (openedWav file).nframes = 0
  · rw [if_pos hempty]
    exact ⟨_, rfl, le_rfl, rfl⟩
  · rw [if_neg hempty]
    by_cases hwidth : file.sampleWidth = 2
    · have hsamples := unpackSamples_zeros file.frames.length
      rw [← frames_eq_replicate h hwidth] at hsamples
      have heven : (openedWav file).frames.length % 2 = 0 := by
        simp only [openedWav, length_frames h, hwidth]
        rw [Nat.mul_left_comm]
        exact Nat.mul_mod_right _ _
      have hsum : ((unpackSamples (openedWav file).frames).map fun sample => sample * sample).sum = 0 := by
        apply List.sum_eq_zero
        intro square hsquare
        obtain ⟨sample, hsample, rfl⟩ := List.mem_map.mp hsquare
        rw [hsamples sample hsample, mul_zero]
      have hwide : ¬ (openedWav file).sampwidth ≠ 2 := not_not.mpr hwidth
      rw [if_neg hwide, if_neg (not_not.mpr heven), hsum]
      split_ifs with hnone
      · exact ⟨_, rfl, le_rfl, rfl⟩
      · refine ⟨_, rfl, ?_, rfl⟩
        simp [WavStats.power]
    · have hnarrow : (openedWav file).sampwidth ≠ 2 := hwidth
      rw [if_pos hnarrow]
      exact ⟨_, rfl, le_rfl, rfl⟩

end NominalFiles

/-! ## Durations -/

/-- A rate at which a duration is a whole number of frames, or long enough. -/
def FitsRate (durationMs : ℚ) (rate : ℤ) : Prop :=
  51000 ≤ rate * durationMs ∨ ∃ frames : ℤ, rate * durationMs = 1000 * frames

/-- A value that is not tiny is rounded by little. -/
theorem nearest_bounds {q : ℚ} (h : 1 / 2 ^ 32 ≤ q) :
    (1 - 1 / 2 ^ 53) * q ≤ nearest q ∧ nearest q ≤ (1 + 1 / 2 ^ 53) * q := by
  have hpos : 0 < q := lt_of_lt_of_le (by positivity) h
  have hnormal : (2 : ℚ) ^ (-1022 : ℤ) ≤ |q| := by
    have hunit : (1 : ℚ) / 2 ^ 32 = 2 ^ (-32 : ℤ) := by norm_num
    rw [abs_of_pos hpos]
    refine le_trans ?_ h
    rw [hunit]
    exact zpow_le_zpow_right₀ (by norm_num) (by norm_num)
  have hround := abs_nearest_sub_le_of_le hnormal
  rw [abs_of_pos hpos] at hround
  obtain ⟨hlo, hhi⟩ := abs_le.mp hround
  constructor <;> linarith

/-- A number of frames of a duration: the rounding of a value that the roundings of a quotient and
a product leave near the exact one. -/
def Counts (durationMs : ℚ) (rate : ℤ) (count : ℕ) : Prop :=
  ∃ frames : ℚ, |frames - rate * (durationMs / 1000)| ≤ rate * (durationMs / 1000) / 2 ^ 50 ∧
    count = (roundHalfEven frames).toNat

theorem one_le_of_fitsRate {durationMs : ℚ} {rate : ℤ} (hpos : 0 < durationMs) (hrate : 0 < rate)
    (h : FitsRate durationMs rate) : 1 ≤ rate * (durationMs / 1000) := by
  rcases h with hlong | ⟨frames, hframes⟩
  · linarith
  · have hrateQ : (0 : ℚ) < rate := by exact_mod_cast hrate
    have hproduct : 0 < rate * durationMs := mul_pos hrateQ hpos
    have hframesPos : (0 : ℚ) < frames := by linarith
    have hone : (1 : ℚ) ≤ frames := by exact_mod_cast hframesPos
    linarith

theorem counts_frameCount {durationMs : ℚ} {rate : ℤ} (hpos : 0 < durationMs) (hrate : 0 < rate)
    (hlt : rate < 2 ^ 32) (h : FitsRate durationMs rate) :
    Counts durationMs rate (frameCount rate durationMs) := by
  refine ⟨_, ?_, rfl⟩
  have hone := one_le_of_fitsRate hpos hrate h
  have hrateQ : (0 : ℚ) < rate := by exact_mod_cast hrate
  have hltQ : (rate : ℚ) ≤ 2 ^ 32 := by exact_mod_cast hlt.le
  have hseconds : 1 / 2 ^ 32 ≤ durationMs / 1000 := by
    rw [div_le_iff₀ (by positivity)]
    calc (1 : ℚ) ≤ rate * (durationMs / 1000) := hone
      _ ≤ 2 ^ 32 * (durationMs / 1000) := by gcongr
      _ = durationMs / 1000 * 2 ^ 32 := mul_comm _ _
  obtain ⟨hquotientLo, hquotientHi⟩ := nearest_bounds hseconds
  have hlo := mul_le_mul_of_nonneg_left hquotientLo hrateQ.le
  have hhi := mul_le_mul_of_nonneg_left hquotientHi hrateQ.le
  rw [mul_left_comm] at hlo hhi
  have hproduct : 1 / 2 ^ 32 ≤ rate * nearest (durationMs / 1000) := by
    norm_num at hlo ⊢
    linarith
  obtain ⟨hproductLo, hproductHi⟩ := nearest_bounds hproduct
  norm_num at hlo hhi hproductLo hproductHi ⊢
  rw [abs_le]
  constructor <;> linarith

/-- The rounding of the number of frames changes the duration by little more than a 102nd part. -/
theorem exactMs_bounds {durationMs : ℚ} {rate : ℤ} {count : ℕ} (hpos : 0 < durationMs)
    (hrate : 0 < rate) (h : FitsRate durationMs rate) (hcounts : Counts durationMs rate count) :
    0 < count ∧ (101 / 102 - 1 / 2 ^ 49) * durationMs ≤ count / rate * 1000 ∧
      (count : ℚ) / rate * 1000 ≤ (103 / 102 + 1 / 2 ^ 49) * durationMs := by
  obtain ⟨frames, hnear, rfl⟩ := hcounts
  have hrateQ : (0 : ℚ) < rate := by exact_mod_cast hrate
  set exact : ℚ := rate * (durationMs / 1000) with hexact
  have hexactPos : 0 < exact := by positivity
  have hhalf := abs_le.mp (abs_sub_roundHalfEven_le frames)
  have hbounds := abs_le.mp hnear
  have hround : |exact - roundHalfEven frames| ≤ (1 / 102 + 1 / 2 ^ 49) * exact := by
    rcases h with hlong | ⟨whole, hwhole⟩
    · have hlower : (51 : ℚ) ≤ exact := by
        rw [hexact]
        linarith
      rw [abs_le]
      constructor <;> linarith
    · have heq : exact = whole := by
        rw [hexact]
        linarith
      by_cases hclose : |frames - whole| < 1 / 2
      · rw [roundHalfEven_eq_of_abs_sub_lt hclose, heq, sub_self, abs_zero, ← heq]
        positivity
      -- So many frames that the roundings of the floats exceed that of the number.
      · rw [not_lt, ← heq] at hclose
        rw [abs_le]
        constructor <;> linarith
  have hnonneg : 0 ≤ roundHalfEven frames :=
    le_roundHalfEven (by rw [Int.cast_zero]; linarith)
  have hcount : (((roundHalfEven frames).toNat : ℕ) : ℚ) = roundHalfEven frames := by
    exact_mod_cast Int.toNat_of_nonneg hnonneg
  have hduration : durationMs = exact / rate * 1000 := by
    rw [hexact]
    field_simp
  obtain ⟨hlo, hhi⟩ := abs_le.mp hround
  refine ⟨?_, ?_, ?_⟩
  · have hcountPos : (0 : ℚ) < ((roundHalfEven frames).toNat : ℕ) := by
      rw [hcount]
      linarith
    exact_mod_cast hcountPos
  · rw [hcount]
    calc (101 / 102 - 1 / 2 ^ 49) * durationMs
          = ((101 / 102 - 1 / 2 ^ 49) * exact) / rate * 1000 := by
          rw [hduration]
          ring
      _ ≤ (roundHalfEven frames : ℚ) / rate * 1000 := by
          gcongr
          linarith
  · rw [hcount]
    calc (roundHalfEven frames : ℚ) / rate * 1000
          ≤ ((103 / 102 + 1 / 2 ^ 49) * exact) / rate * 1000 := by
          gcongr
          linarith
      _ = (103 / 102 + 1 / 2 ^ 49) * durationMs := by
          rw [hduration]
          ring

/-- The duration that is read of a file with such a number of frames differs from the nominal one
by a 101st part at most. -/
theorem durationMs_bounds {durationMs : ℚ} {rate : ℤ} {count : ℕ} (hpos : 0 < durationMs)
    (hrate : 0 < rate) (hlt : rate < 2 ^ 32) (h : FitsRate durationMs rate)
    (hcounts : Counts durationMs rate count) :
    100 / 101 * durationMs ≤ nearest (nearest (count / rate) * 1000) ∧
      nearest (nearest ((count : ℚ) / rate) * 1000) ≤ 102 / 101 * durationMs := by
  obtain ⟨hcount, hlo, hhi⟩ := exactMs_bounds hpos hrate h hcounts
  set q : ℚ := count / rate with hq
  have hunit : 1 / 2 ^ 32 ≤ q := by
    have hrateQ : (0 : ℚ) < rate := by exact_mod_cast hrate
    have hltQ : (rate : ℚ) ≤ 2 ^ 32 := by exact_mod_cast hlt.le
    have hcountQ : (1 : ℚ) ≤ count := by exact_mod_cast hcount
    rw [hq]
    gcongr
  obtain ⟨hfirstLo, hfirstHi⟩ := nearest_bounds hunit
  have hsecond : 1 / 2 ^ 32 ≤ nearest q * 1000 := by
    norm_num at hunit hfirstLo ⊢
    linarith
  obtain ⟨hlastLo, hlastHi⟩ := nearest_bounds hsecond
  norm_num at hlo hhi hfirstLo hfirstHi hlastLo hlastHi
  constructor <;> linarith

/-- Two nominal files of one duration are within the tolerance of two percent. -/
theorem ratio_bounds {durationMs before after : ℚ} (hpos : 0 < durationMs)
    (hbefore : 100 / 101 * durationMs ≤ before ∧ before ≤ 102 / 101 * durationMs)
    (hafter : 100 / 101 * durationMs ≤ after ∧ after ≤ 102 / 101 * durationMs) :
    1 - 2 / 100 ≤ after / before ∧ after / before ≤ 1 + 2 / 100 := by
  have hbeforePos : 0 < before := lt_of_lt_of_le (by positivity) hbefore.1
  rw [le_div_iff₀ hbeforePos, div_le_iff₀ hbeforePos]
  constructor <;> linarith [hbefore.1, hbefore.2, hafter.1, hafter.2]

/-! ## The walk over nominal files -/

/-- A duration that is nearly the one expected, or none. -/
def NearDuration (durationMs : ℚ) (stats : WavStats) : Prop :=
  stats.durationMs ≤ 0 ∨
    (0 < durationMs ∧ 100 / 101 * durationMs ≤ stats.durationMs ∧
      stats.durationMs ≤ 102 / 101 * durationMs)

/-- What the walk reads of the files of a run. -/
structure NominalStats (durationMs : ℚ) (stats : WavStats) : Prop where
  silent : stats.power ≤ 0
  duration : NearDuration durationMs stats

/-- Without a duration a file has no frames. -/
theorem nominalStats_of_file {durationMs : ℚ} {file : SilentWav} {files : WavFiles}
    {recording : RecordingArtifact} {stats : WavStats} (hnonneg : 0 ≤ durationMs)
    (h : NominalFile durationMs file) (hfits : FitsRate durationMs file.frameRate)
    (hfile : files recording.uri = .ok (openedWav file))
    (hstats : readWavStats files recording = .ok stats) : NominalStats durationMs stats := by
  obtain ⟨stats', hstats', hsilent, hduration⟩ := readWavStats_nominal h hfile
  obtain rfl := Except.ok.inj (hstats'.symm.trans hstats)
  refine ⟨hsilent, ?_⟩
  rw [NearDuration, hduration]
  rcases eq_or_lt_of_le hnonneg with hzero | hpos
  · left
    have hcount : frameCount file.frameRate durationMs = 0 := by
      rw [← hzero, frameCount, zero_div, nearest_zero, mul_zero, nearest_zero]
      exact congrArg Int.toNat (roundHalfEven_intCast 0)
    rw [hcount]
    simp
  · right
    exact ⟨hpos, durationMs_bounds hpos h.rate_pos h.rate_lt hfits
      (counts_frameCount hpos h.rate_pos h.rate_lt hfits)⟩

/-- A result that passes, and compares no levels. -/
def Untroubled (result : VerificationResult) : Prop :=
  result.passed = true ∧ (result.invariant = "level_preserving" →
    result.expected = .obj [("comparison", .str "suppressed_for_expected_loss")])

/-- Two durations that are nearly the same pass. -/
theorem passed_verifyDuration {durationMs : ℚ} {name : String} {previous current : WavStats}
    {result : VerificationResult} (hprevious : NearDuration durationMs previous)
    (hcurrent : NearDuration durationMs current)
    (h : verifyDuration name previous current (2 / 100) = some result) :
    result.passed = true ∧ result.invariant = "duration_preserving" := by
  rw [verifyDuration] at h
  split_ifs at h with hnone
  obtain rfl := Option.some.inj h
  rw [not_or, not_le, not_le] at hnone
  obtain ⟨hpos, hbefore⟩ := hprevious.resolve_left (not_le.mpr hnone.1)
  obtain ⟨-, hafter⟩ := hcurrent.resolve_left (not_le.mpr hnone.2)
  obtain ⟨hlower, hupper⟩ := ratio_bounds hpos hbefore hafter
  exact ⟨decide_eq_true ⟨nearest_mono hlower, nearest_mono hupper⟩, rfl⟩

/-- What is compared with itself passes. -/
theorem passed_signalResult_self {e : Evidence} (htolerances : e.tolerances = {}) {stage : Json}
    {name invariant : String} {stats : WavStats} {result : VerificationResult}
    (h : e.signalResult stage name stats stats invariant = some result) : result.passed = true := by
  unfold Evidence.signalResult at h
  rw [htolerances] at h
  dsimp only at h
  split_ifs at h
  · obtain rfl := Option.some.inj h
    rfl
  · rw [verifyDuration] at h
    split_ifs at h with hnone
    obtain rfl := Option.some.inj h
    rw [not_or, not_le] at hnone
    simp only [div_self hnone.1.ne', decide_eq_true_eq]
    exact ⟨nearest_mono (by norm_num), nearest_mono (by norm_num)⟩
  · unfold verifyLevel at h
    split at h
    · rename_i before after hbefore hafter
      cases hbefore.symm.trans hafter
      split_ifs at h with hnone
      obtain rfl := Option.some.inj h
      rw [not_or, not_le] at hnone
      simp only [div_self hnone.1.ne', withinDb, one_pow, decide_eq_true_eq]
      norm_num
    · cases h

theorem invariant_cases {stage : Json} {invariant : String} (h : invariant ∈ signalInvariants stage) :
    invariant = "duration_preserving" ∨ invariant = "level_preserving" := by
  simpa using (List.mem_filter.mp h).2

theorem untroubled_signalResult {e : Evidence} (htolerances : e.tolerances = {}) {durationMs : ℚ}
    {stage : Json} {name invariant : String} {previous current : WavStats}
    {result : VerificationResult} (hprevious : NominalStats durationMs previous)
    (hcurrent : NominalStats durationMs current) (hinvariant : invariant ∈ signalInvariants stage)
    (h : e.signalResult stage name previous current invariant = some result) :
    Untroubled result := by
  by_cases hlossy : lossyExpectedReasons stage invariant = []
  · rw [Evidence.signalResult, if_neg (not_not.mpr hlossy)] at h
    rcases invariant_cases hinvariant with rfl | rfl
    · rw [if_pos rfl, htolerances] at h
      obtain ⟨hpassed, hname⟩ := passed_verifyDuration hprevious.duration hcurrent.duration h
      exact ⟨hpassed, fun hlevel => absurd (hname.symm.trans hlevel) (by decide)⟩
    · rw [if_neg (by decide), Evidence.verifyLevel_none hcurrent.silent] at h
      cases h
  · rw [Evidence.signalResult, if_pos hlossy] at h
    obtain rfl := Option.some.inj h
    exact ⟨rfl, fun _ => rfl⟩

section Walk

variable {e : Evidence} {P : VerificationResult → Prop} {Q : WavStats → Prop}

theorem mem_of_recording {stage : Json} {recording : RecordingArtifact}
    (h : e.recording stage = some recording) : recording ∈ e.recordings :=
  List.mem_reverse.mp (List.mem_of_find?_eq_some h)

/-- Where the results of a stage come from. -/
theorem stageResults_eq_ok {stage : Json} {earlier : Option RecordingArtifact}
    {results : List VerificationResult} (h : e.stageResults earlier stage = .ok results) :
    ∃ cadence found, e.isochronousResults stage = .ok cadence ∧ results = cadence ++ found ∧
      ∀ result ∈ found,
        ∃ previous ∈ earlier, ∃ current ∈ e.recording stage, ∃ before after invariant,
          tryReadWavStats e.files previous = .ok (some before) ∧
          tryReadWavStats e.files current = .ok (some after) ∧ invariant ∈ signalInvariants stage ∧
          e.signalResult stage current.stage before after invariant = some result := by
  obtain ⟨cadence, hcadence, h⟩ := bind_eq_ok.mp h
  refine ⟨cadence, ?_⟩
  cases hcurrent : e.recording stage with
  | none =>
      rw [hcurrent] at h
      cases h
      exact ⟨[], hcadence, by simp, by simp⟩
  | some current =>
      cases earlier with
      | none =>
          rw [hcurrent] at h
          cases h
          exact ⟨[], hcadence, by simp, by simp⟩
      | some previous =>
          rw [hcurrent] at h
          obtain ⟨found, hfound, h⟩ := bind_eq_ok.mp h
          cases h
          refine ⟨found, hcadence, rfl, fun result hresult => ⟨previous, rfl, current, rfl, ?_⟩⟩
          unfold Evidence.signalResults at hfound
          split at hfound
          · cases hfound
            simp at hresult
          · obtain ⟨before, hbefore, hfound⟩ := bind_eq_ok.mp hfound
            obtain ⟨after, hafter, hfound⟩ := bind_eq_ok.mp hfound
            split at hfound
            · cases hfound
              obtain ⟨invariant, hinvariant, hsome⟩ := List.mem_filterMap.mp hresult
              exact ⟨_, _, invariant, hbefore, hafter, hinvariant, hsome⟩
            · cases hfound
              simp at hresult

/-- What holds of the results of each check on the statistics of the recordings holds of the
results of the walk. -/
theorem forall_mem_walk {stages : List Json} {earlier : Option RecordingArtifact}
    {results : List VerificationResult}
    (hread : ∀ recording ∈ e.recordings, ∀ stats, readWavStats e.files recording = .ok stats → Q stats)
    (hiso : ∀ stage ∈ stages, ∀ results, e.isochronousResults stage = .ok results →
      ∀ result ∈ results, P result)
    (hsignal : ∀ stage name previous current invariant result, Q previous → Q current →
      invariant ∈ signalInvariants stage →
        e.signalResult stage name previous current invariant = some result → P result)
    (hearlier : ∀ recording ∈ earlier, recording ∈ e.recordings)
    (h : e.verifyStages earlier stages = .ok results) : ∀ result ∈ results, P result := by
  have hstats : ∀ recording ∈ e.recordings, ∀ stats,
      tryReadWavStats e.files recording = .ok (some stats) → Q stats := by
    intro recording hrecording stats hsome
    refine hread recording hrecording stats ?_
    unfold tryReadWavStats at hsome
    split at hsome <;> simp_all
  induction stages generalizing earlier results with
  | nil =>
      cases h
      simp
  | cons stage stages ih =>
      obtain ⟨first, hfirst, h⟩ := bind_eq_ok.mp h
      obtain ⟨rest, hrest, h⟩ := bind_eq_ok.mp h
      cases h
      have hnext : ∀ recording ∈ (e.recording stage).or earlier, recording ∈ e.recordings := by
        intro recording hmem
        rcases Option.or_eq_some_iff.mp hmem with hmem | ⟨-, hmem⟩
        · exact mem_of_recording hmem
        · exact hearlier recording hmem
      have hlater := ih (fun s hs => hiso s (List.mem_cons_of_mem _ hs)) hnext hrest
      obtain ⟨cadence, found, hcadence, rfl, hfound⟩ := stageResults_eq_ok hfirst
      intro result hresult
      rcases List.mem_append.mp hresult with hmem | hmem
      · rcases List.mem_append.mp hmem with hmem | hmem
        · exact hiso stage List.mem_cons_self cadence hcadence result hmem
        · obtain ⟨previous, hprevious, current, hcurrent, before, after, invariant, hbefore, hafter,
            hinvariant, hsome⟩ := hfound result hmem
          exact hsignal _ _ _ _ _ _ (hstats _ (hearlier _ hprevious) _ hbefore)
            (hstats _ (mem_of_recording hcurrent) _ hafter) hinvariant hsome
      · exact hlater result hmem

/-- Recordings that can be read are verified. -/
theorem exists_verify_of_readable
    (hread : ∀ recording ∈ e.recordings, ∃ stats, readWavStats e.files recording = .ok stats)
    {stages : List Json} (hptime : e.PtimeFits stages) :
    ∃ results, e.verifyStages none stages = .ok results := by
  refine Evidence.exists_verifyStages_iff.mpr ⟨hptime, ?_⟩
  intro before stage after previous current _ hprevious hcurrent _
  have hcaught : ∀ recording ∈ e.recordings, e.Caught recording := by
    intro recording hrecording
    obtain ⟨stats, hstats⟩ := hread recording hrecording
    rw [Evidence.Caught, hstats]
    nofun
  rw [Option.or_none] at hprevious
  obtain ⟨stage', -, hstage'⟩ := List.mem_filterMap.mp (List.mem_of_getLast? hprevious)
  exact ⟨hcaught previous (mem_of_recording hstage'), hcaught current (mem_of_recording hcurrent)⟩

/-- The results of a stage are among those of the walk. -/
theorem isochronousResults_subset {stages : List Json} {earlier : Option RecordingArtifact}
    {results : List VerificationResult} (h : e.verifyStages earlier stages = .ok results)
    {stage : Json} (hstage : stage ∈ stages) :
    ∃ cadence, e.isochronousResults stage = .ok cadence ∧ cadence ⊆ results := by
  induction stages generalizing earlier results with
  | nil => cases hstage
  | cons first stages ih =>
      obtain ⟨found, hfirst, h⟩ := bind_eq_ok.mp h
      obtain ⟨rest, hrest, h⟩ := bind_eq_ok.mp h
      cases h
      rcases List.mem_cons.mp hstage with rfl | hstage
      · obtain ⟨cadence, signals, hcadence, rfl, -⟩ := stageResults_eq_ok hfirst
        exact ⟨cadence, hcadence,
          fun result hresult => List.mem_append_left _ (List.mem_append_left _ hresult)⟩
      · obtain ⟨cadence, hcadence, hsubset⟩ := ih hrest hstage
        exact ⟨cadence, hcadence, fun result hresult => List.mem_append_right _ (hsubset hresult)⟩

end Walk

/-! ## Cadence -/

section Cadence

variable {resolvedConfig : Json} {e : Evidence} {stage : Json}

/-- The values of the nominal metrics of a stage. -/
theorem mem_nominalCadenceMetrics {stageName : String} {ts : Datetime} {metric : MetricArtifact}
    (h : metric ∈ nominalCadenceMetrics resolvedConfig stageName ts) :
    metric.stage = some stageName ∧
      (metric.name = "frames_in" → metric.value = 1) ∧
      (metric.name = "frames_out" → metric.value = 1) ∧
      (metric.name = "frame_cadence_jitter_ms" → metric.value = 0) := by
  unfold nominalCadenceMetrics at h
  split at h
  · split_ifs at h
    · simp only [List.mem_cons, List.not_mem_nil, or_false] at h
      rcases h with rfl | rfl | rfl | rfl <;> simp
    · cases h
  · cases h

/-- The metrics of stages are nominal ones. -/
def NominalMetrics (resolvedConfig : Json) (metrics : List MetricArtifact) : Prop :=
  ∀ metric ∈ metrics, ∀ name, metric.stage = some name → ∃ ts,
    metric ∈ nominalCadenceMetrics resolvedConfig name ts

/-- As many frames come out as go in, without jitter. -/
def SteadyMetrics (frames : ℚ) (metrics : List MetricArtifact) : Prop :=
  ∀ metric ∈ metrics, metric.stage ≠ none →
    (metric.name = "frames_in" → metric.value = frames) ∧
      (metric.name = "frames_out" → metric.value = frames) ∧
      (metric.name = "frame_cadence_jitter_ms" → metric.value = 0)

theorem metric_steady {frames : ℚ} (h : SteadyMetrics frames e.metrics) {name : String} {value : ℚ}
    (hvalue : e.metric stage name = some value) :
    (name = "frames_in" → value = frames) ∧ (name = "frames_out" → value = frames) ∧
      (name = "frame_cadence_jitter_ms" → value = 0) := by
  obtain ⟨metric, hfind, rfl⟩ := Option.map_eq_some_iff.mp hvalue
  have hmem := List.mem_reverse.mp (List.mem_of_find?_eq_some hfind)
  have hmatch := List.find?_some hfind
  rw [decide_eq_true_eq] at hmatch
  rw [← hmatch.2]
  exact h metric hmem (by simp [hmatch.1])

/-- A steady cadence passes. -/
theorem passed_isochronous {frames : ℚ} (htolerances : e.tolerances = {})
    (h : SteadyMetrics frames e.metrics) {results : List VerificationResult}
    (hresults : e.isochronousResults stage = .ok results) {result : VerificationResult}
    (hresult : result ∈ results) : result.passed = true ∧ result.invariant = "isochronous" := by
  obtain ⟨-, rfl⟩ | ⟨-, intervalMs, -, rfl⟩ := Evidence.isochronousResults_eq_ok_iff.mp hresults
  · cases hresult
  rw [Option.mem_toList] at hresult
  unfold compareCadence at hresult
  split at hresult
  · rename_i framesIn framesOut jitterMs expectedIntervalMs hin hout hjitter
    rw [(metric_steady h hin).1 rfl, (metric_steady h hout).2.1 rfl,
      (metric_steady h hjitter).2.2 rfl] at hresult
    by_cases hnone : frames ≤ 0 ∨ expectedIntervalMs ≤ 0
    · rw [if_pos hnone] at hresult
      cases hresult
    rw [if_neg hnone] at hresult
    cases hresult
    rw [not_or, not_le, not_le] at hnone
    have hlimit : 0 ≤ nearest (expectedIntervalMs * (1 / 4)) := by
      have hpos := hnone.2
      exact nearest_nonneg (by positivity)
    refine ⟨?_, rfl⟩
    rw [htolerances]
    simp only [decide_eq_true_eq, div_self hnone.1.ne']
    exact ⟨⟨nearest_mono (by norm_num), nearest_mono (by norm_num)⟩, hlimit⟩
  · cases hresult

theorem steady_of_nominal (h : NominalMetrics resolvedConfig e.metrics) : SteadyMetrics 1 e.metrics := by
  intro metric hmetric hstage
  obtain ⟨name, hname⟩ := Option.ne_none_iff_exists'.mp hstage
  obtain ⟨ts, hts⟩ := h metric hmetric name hname
  exact (mem_nominalCadenceMetrics hts).2

/-- A nominal cadence passes. -/
theorem untroubled_isochronous (htolerances : e.tolerances = {})
    (h : NominalMetrics resolvedConfig e.metrics) {results : List VerificationResult}
    (hresults : e.isochronousResults stage = .ok results) {result : VerificationResult}
    (hresult : result ∈ results) : Untroubled result := by
  obtain ⟨hpassed, hname⟩ := passed_isochronous htolerances (steady_of_nominal h) hresults hresult
  exact ⟨hpassed, fun hlevel => absurd (hname.symm.trans hlevel) (by decide)⟩

theorem isSome_metric {name : String} {metric : MetricArtifact} (h : metric ∈ e.metrics)
    (hstage : metric.stage = some (stageType stage)) (hname : metric.name = name) :
    ∃ value, e.metric stage name = some value := by
  have hsome : (e.metrics.reverse.find? fun metric =>
      metric.stage = some (stageType stage) ∧ metric.name = name).isSome :=
    List.find?_isSome.mpr ⟨metric, List.mem_reverse.mpr h, decide_eq_true ⟨hstage, hname⟩⟩
  obtain ⟨found, hfound⟩ := Option.isSome_iff_exists.mp hsome
  refine ⟨found.value, ?_⟩
  rw [Evidence.metric, hfound]
  rfl

/-- A stage that declares the invariant, with the metrics of its type, is checked. -/
theorem exists_isochronous (h : NominalMetrics resolvedConfig e.metrics) {durationMs : ℚ}
    (hduration : nominalRecordingDurationMs resolvedConfig = .ok durationMs)
    (hpos : 0 < durationMs) {ts : Datetime}
    (hmetrics : nominalCadenceMetrics resolvedConfig (stageType stage) ts ⊆ e.metrics)
    (hfirst : ∃ first ∈ stageConfig resolvedConfig (stageType stage),
      "isochronous" ∈ (first.field ["invariants_applicable"]).texts)
    (hdeclared : "isochronous" ∈ (stage.field ["invariants_applicable"]).texts) :
    ∃ results, e.isochronousResults stage = .ok results ∧
      ∃ result ∈ results, result.stage = stageType stage ∧ result.invariant = "isochronous" := by
  obtain ⟨first, hconfig, happlicable⟩ := hfirst
  obtain ⟨-, ⟨-, rfl⟩ | ⟨ptimeMs, hpositive, hsame⟩⟩ := nominalRecordingDurationMs_eq_ok hduration
  · exact absurd hpos (lt_irrefl _)
  have hlist : nominalCadenceMetrics resolvedConfig (stageType stage) ts =
      [⟨some (stageType stage), "frames_in", 1, ts⟩, ⟨some (stageType stage), "frames_out", 1, ts⟩,
        ⟨some (stageType stage), "frame_cadence_jitter_ms", 0, ts⟩,
        ⟨some (stageType stage), "expected_frame_interval_ms", nearest ptimeMs, ts⟩] := by
    simp only [nominalCadenceMetrics, Option.mem_def.mp hconfig, hpositive, if_pos happlicable]
  rw [hlist] at hmetrics
  have hsome : ∀ name value, (⟨some (stageType stage), name, value, ts⟩ : MetricArtifact) ∈ e.metrics →
      ∃ value, e.metric stage name = some value :=
    fun name value hmem => isSome_metric hmem rfl rfl
  obtain ⟨framesIn, hin⟩ := hsome "frames_in" 1 (hmetrics (by simp))
  obtain ⟨framesOut, hout⟩ := hsome "frames_out" 1 (hmetrics (by simp))
  obtain ⟨jitterMs, hjitter⟩ := hsome "frame_cadence_jitter_ms" 0 (hmetrics (by simp))
  obtain ⟨interval, hinterval⟩ :=
    hsome "expected_frame_interval_ms" (nearest ptimeMs) (hmetrics (by simp))
  obtain ⟨metric, hfind, hvalue⟩ := Option.map_eq_some_iff.mp hinterval
  have hmatch := List.find?_some hfind
  rw [decide_eq_true_eq] at hmatch
  obtain ⟨ts', hts'⟩ := h metric (List.mem_reverse.mp (List.mem_of_find?_eq_some hfind)) _ hmatch.1
  have hintervalPos : 0 < interval := by
    have hmem := hts'
    simp only [nominalCadenceMetrics, Option.mem_def.mp hconfig, hpositive, if_pos happlicable,
      List.mem_cons, List.not_mem_nil, or_false] at hmem
    rw [hsame] at hpos
    rcases hmem with rfl | rfl | rfl | rfl <;> simp_all
  have hinvariants : "isochronous" ∈ invariants stage :=
    List.mem_filter.mpr ⟨hdeclared, by decide⟩
  obtain rfl := (metric_steady (steady_of_nominal h) hin).1 rfl
  have hexpected : expectedIntervalMs (e.metric stage) e.configPtimeMs = .ok (some interval) := by
    unfold expectedIntervalMs
    rw [hinterval]
  refine ⟨(compareCadence (stageType stage) (e.metric stage) (some interval) e.tolerances).toList,
    Evidence.isochronousResults_eq_ok_iff.mpr (Or.inr ⟨hinvariants, some interval, hexpected, rfl⟩), ?_⟩
  unfold compareCadence
  simp only [hin, hout, hjitter]
  rw [if_neg (by simp [hintervalPos])]
  exact ⟨_, Option.mem_toList.mpr rfl, rfl, rfl⟩

end Cadence

/-! ## The run -/

section NominalRun

variable {resolvedConfig : Json} {plans : List StagePlan}

theorem get?_of_subscript {document value : Json} {key : String}
    (h : subscript document key = .ok value) : document.get? key = some value := by
  unfold subscript at h
  split at h
  · rename_i fields
    cases hget : Dict.get? fields key with
    | none => simp [hget] at h
    | some found =>
        simp only [hget, Except.ok.injEq] at h
        exact hget.trans (congrArg some h)
  · cases h

theorem nameOf_eq_ok {value : Json} {name : String} (h : nameOf value = .ok name) :
    value.str? = some name := by
  unfold nameOf at h
  split at h
  · cases h
    assumption
  · cases h

/-- The plan has the types of the stages. -/
theorem stagePlan_eq_ok {stage : Json} {plan : StagePlan} (h : stagePlan stage = .ok plan) :
    (stage.get? "type").bind Json.str? = some plan.stage ∧ stageType stage = plan.stage := by
  obtain ⟨name, hname, h⟩ := bind_eq_ok.mp h
  obtain ⟨plugin, -, h⟩ := bind_eq_ok.mp h
  obtain ⟨format, -, h⟩ := bind_eq_ok.mp h
  obtain ⟨name', hname', h⟩ := bind_eq_ok.mp h
  obtain ⟨plugin', -, h⟩ := bind_eq_ok.mp h
  cases h
  have hget := get?_of_subscript hname
  have htext := nameOf_eq_ok hname'
  refine ⟨by rw [hget]; exact htext, ?_⟩
  simp [stageType, Json.field, Json.lookup, hget, Json.text, htext]

theorem buildStagePlan_eq_ok (h : buildStagePlan resolvedConfig = .ok plans) :
    resolvedConfig.field ["spec", "media", "pipeline"] = .arr (pipeline resolvedConfig) ∧
      List.Forall₂ (fun stage plan => stagePlan stage = .ok plan) (pipeline resolvedConfig) plans := by
  obtain ⟨spec, hspec, h⟩ := bind_eq_ok.mp h
  obtain ⟨media, hmedia, h⟩ := bind_eq_ok.mp h
  obtain ⟨value, hvalue, h⟩ := bind_eq_ok.mp h
  have hfield : resolvedConfig.field ["spec", "media", "pipeline"] = value := by
    simp [Json.field, Json.lookup, get?_of_subscript hspec, get?_of_subscript hmedia,
      get?_of_subscript hvalue]
  split at h
  · rename_i stages
    have hpipeline : pipeline resolvedConfig = stages := by
      rw [pipeline, hfield]
      rfl
    rw [hfield, hpipeline]
    exact ⟨rfl, mapM_eq_ok_iff.mp h⟩
  · cases h

theorem exists_plan (h : buildStagePlan resolvedConfig = .ok plans) {stage : Json}
    (hstage : stage ∈ pipeline resolvedConfig) :
    ∃ plan ∈ plans, plan.stage = stageType stage ∧
      (stage.get? "type").bind Json.str? = some (stageType stage) := by
  obtain ⟨plan, hplan, hof⟩ := exists_mem_of_forall₂ (buildStagePlan_eq_ok h).2.flip hstage
  obtain ⟨htext, htype⟩ := stagePlan_eq_ok hof
  exact ⟨plan, hplan, htype.symm, htype ▸ htext⟩

/-- What a run returns, in terms of its loop. -/
theorem runOnce_eq {durationMs : ℚ} (hduration : nominalRecordingDurationMs resolvedConfig = .ok durationMs)
    (h : buildStagePlan resolvedConfig = .ok plans) {σ : Type} (sink : RecordingSink σ)
    (world : HarnessWorld) (runId configHash : String) (state : σ) :
    runOnce sink world runId resolvedConfig configHash state =
      match runStages sink world runId resolvedConfig configHash durationMs 0 plans state with
      | .error e => .error (.storage e)
      | .ok (collected, state') =>
          .ok (⟨world.conversationId, collected.recordings,
            collected.spans ++ [runSpan world runId configHash],
            hostMetrics resolvedConfig (world.host 0) ++ collected.metrics ++
              hostMetrics resolvedConfig (world.host (plans.length + 1))⟩, state') := by
  unfold runOnce
  rw [hduration, h]
  rfl

/-- Around the metrics of the stages there are those of the host. -/
theorem nominalMetrics_of_run {collected metrics before after : List MetricArtifact}
    (hmetrics : metrics = before ++ collected ++ after)
    (hbefore : ∀ metric ∈ before, metric.stage = none)
    (hafter : ∀ metric ∈ after, metric.stage = none)
    (h : ∀ metric ∈ collected, metric.stage = none ∨ ∃ plan ∈ plans, ∃ ts,
      metric ∈ nominalCadenceMetrics resolvedConfig plan.stage ts) :
    NominalMetrics resolvedConfig metrics := by
  intro metric hmetric name hname
  rw [hmetrics, List.mem_append, List.mem_append] at hmetric
  have hnone : metric.stage ≠ none := by simp [hname]
  rcases hmetric with (hmetric | hmetric) | hmetric
  · exact absurd (hbefore metric hmetric) hnone
  · obtain ⟨plan, -, ts, hts⟩ := (h metric hmetric).resolve_left hnone
    have hstage := (mem_nominalCadenceMetrics hts).1
    rw [hname] at hstage
    exact ⟨ts, Option.some.inj hstage ▸ hts⟩
  · exact absurd (hafter metric hmetric) hnone

/-- Stages of the type declare the cadence. -/
def DeclaresCadence (resolvedConfig : Json) (name : String) : Prop :=
  ∀ stage ∈ pipeline resolvedConfig, stageType stage = name →
    "isochronous" ∈ (stage.field ["invariants_applicable"]).texts

theorem exists_stageConfig (h : buildStagePlan resolvedConfig = .ok plans) {stage : Json}
    (hstage : stage ∈ pipeline resolvedConfig)
    (hdeclared : DeclaresCadence resolvedConfig (stageType stage)) :
    ∃ first ∈ stageConfig resolvedConfig (stageType stage),
      "isochronous" ∈ (first.field ["invariants_applicable"]).texts := by
  obtain ⟨-, -, -, htext⟩ := exists_plan h hstage
  have hsome : (stageConfig resolvedConfig (stageType stage)).isSome :=
    List.find?_isSome.mpr ⟨stage, hstage, decide_eq_true htext⟩
  obtain ⟨first, hfirst⟩ := Option.isSome_iff_exists.mp hsome
  have hmem : first ∈ pipeline resolvedConfig := List.mem_of_find?_eq_some hfirst
  have htype := List.find?_some hfirst
  rw [decide_eq_true_eq] at htype
  obtain ⟨-, -, -, htext'⟩ := exists_plan h hmem
  exact ⟨first, hfirst, hdeclared first hmem (Option.some.inj (htext'.symm.trans htype))⟩

section Verified

variable {files : WavFiles} {math : FloatMath} {recordings : List RecordingArtifact}
  {metrics : List MetricArtifact} {results : List VerificationResult} {durationMs : ℚ}

/-- Nominal files are read without an exception, and every check of them passes. -/
theorem exists_untroubled (hnonneg : 0 ≤ durationMs) (hnominal : NominalMetrics resolvedConfig metrics)
    (hptime : ∀ ptimeMs ∈ configPtimeMs resolvedConfig, (roundDouble ptimeMs).isSome)
    (hfile : ∀ recording ∈ recordings, ∃ file, NominalFile durationMs file ∧
      FitsRate durationMs file.frameRate ∧ files recording.uri = .ok (openedWav file)) :
    ∃ results, verifyRecordings files math {} resolvedConfig recordings metrics = .ok results ∧
      ∀ r ∈ results, Untroubled r := by
  set e := evidence files math {} resolvedConfig recordings metrics with he
  have hread : ∀ recording ∈ e.recordings, ∃ stats, readWavStats e.files recording = .ok stats := by
    intro recording hrecording
    obtain ⟨file, hnominal, -, hopened⟩ := hfile recording hrecording
    exact (readWavStats_nominal hnominal hopened).imp fun _ => And.left
  have hfloat : e.PtimeFits (pipeline resolvedConfig) := fun _ _ _ _ => hptime
  obtain ⟨results, hresults⟩ := exists_verify_of_readable hread hfloat
  refine ⟨results, hresults, ?_⟩
  refine @forall_mem_walk e Untroubled (NominalStats durationMs) _ none _ ?_ ?_ ?_ nofun hresults
  · intro recording hrecording stats hstats
    obtain ⟨file, hnominal, hfit, hopened⟩ := hfile recording hrecording
    exact nominalStats_of_file hnonneg hnominal hfit hopened hstats
  · exact fun stage _ found hfound result hresult =>
      untroubled_isochronous rfl hnominal hfound hresult
  · exact fun stage name previous current invariant result hprevious hcurrent hinvariant h =>
      untroubled_signalResult rfl hprevious hcurrent hinvariant h

/-- A declared cadence of a stage that reported one is checked. -/
theorem exists_cadence_result (hplans : buildStagePlan resolvedConfig = .ok plans)
    (hnominal : NominalMetrics resolvedConfig metrics)
    (hreported : ∀ plan ∈ plans, ∃ ts, nominalCadenceMetrics resolvedConfig plan.stage ts ⊆ metrics)
    (hduration : nominalRecordingDurationMs resolvedConfig = .ok durationMs) (hpos : 0 < durationMs)
    (hresults : verifyRecordings files math {} resolvedConfig recordings metrics = .ok results)
    {stage : Json} (hstage : stage ∈ pipeline resolvedConfig)
    (hdeclared : DeclaresCadence resolvedConfig (stageType stage)) :
    ∃ r ∈ results, r.stage = stageType stage ∧ r.invariant = "isochronous" := by
  obtain ⟨plan, hplan, hname, -⟩ := exists_plan hplans hstage
  obtain ⟨ts, hsubset⟩ := hreported plan hplan
  rw [hname] at hsubset
  obtain ⟨cadence, hcadence, r, hr, hprops⟩ := @exists_isochronous resolvedConfig
    (evidence files math {} resolvedConfig recordings metrics) stage hnominal _ hduration hpos _
    hsubset (exists_stageConfig hplans hstage hdeclared) (hdeclared stage hstage rfl)
  obtain ⟨cadence', hcadence', hkept⟩ := isochronousResults_subset hresults hstage
  cases hcadence.symm.trans hcadence'
  exact ⟨r, hkept hr, hprops⟩

/-- A run whose recordings are verified without an exception is saved with the results. -/
theorem completed_of_verified {run : StoredRun} {result : HarnessResult} (now : Instant)
    (memory : InMemoryRunRepository)
    (h : verifyRecordings files math {} run.resolvedConfig result.recordings result.metrics =
      .ok results) :
    ∃ saved, (executeStoredRun files math {} now (.returns result) run memory).get run.runId =
        some saved ∧ saved.status = .completed ∧ saved.verifications = results := by
  refine ⟨_, get_executeStoredRun memory, ?_⟩
  simp only [savedRun, HarnessOutcome.execution, h]
  refine ⟨rfl, ?_⟩
  simp only [populateStoredRunResult, resultAssignments, harnessAssignments, List.cons_append,
    List.nil_append, List.foldl_cons, List.foldl_nil, returnedResults, h]

end Verified

end NominalRun

/-- A stage with a wide-band format. -/
def wideStage (type : String) : Json :=
  .obj [("type", .str type), ("plugin", .str type),
    ("io", .obj [("produces", .obj [("rate", .int 16000), ("channels", .int 1)])]),
    ("invariants_applicable", .arr [.str "isochronous", .str "duration_preserving"])]

def wideConfig : Json :=
  .obj [("spec", .obj [("media", .obj [("pipeline", .arr [wideStage "stt", wideStage "tts"])]),
    ("transport", .obj [("ptime_ms", .int 20)])])]

def rootSink : LocalRecordingSink := ⟨⟨['/'], []⟩, rfl, by simp, by simp⟩

def idleWorld : HarnessWorld where
  conversationId := "conversation"
  traceId := "trace"
  runSpan := ⟨"run", 0, 0⟩
  stageSpan := fun _ => ⟨"stage", 0, 0⟩
  now := fun _ => .utc 0
  host := fun _ => ⟨1, 0, 0, 0, .utc 0⟩

/-- A disk without anything. -/
def emptyDisk : Disk := ⟨fun _ => none, []⟩

end VoxBench.Verification
