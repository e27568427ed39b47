import VoxBench.ControlPlane.Models
import VoxBench.Lib.Delimited
import VoxBench.Lib.Double
import VoxBench.Lib.Traverse
import VoxBench.Lib.Url
import Mathlib.Data.List.Infix
import Mathlib.Tactic.Linarith

/-!
# Recordings in an object store

`MinioRecordingSink` puts the WAV file of a stage under a key made of its prefix, the run and
the stage, and returns a URI for it. `MinioRecordingReader` takes such a URI, compares it with
the key that it expects, and reads the object in pieces up to a limit.

## Main definitions

* `MinioRecordingSink.writeStageWav`, `MinioRecordingReader.readWav`.
* `readLoop` — the bounded loop over the pieces.
* `HandsOut` — a response that hands out a content, in any pieces.

## Main results

* `recordings_agree` — what the sink wrote is what the reader reads, bounded, for no other pair.
-/

namespace VoxBench.EngineHarness

open VoxBench.Lib VoxBench.ControlPlane

/-! ## Checks of names -/

/-- The errors of the storage. The `RemoteRecordingReadError`s have one text each. -/
inductive StorageError where
  | valueError (reason : String)
  /-- The `ValueError` of `urlparse`. -/
  | invalidUrl
  /-- `stage audio format must include integer rate and channels`, and the format. -/
  | audioFormat
  /-- `stage duration must be non-negative`, and the duration. -/
  | duration
  /-- An `Error` of `wave`. -/
  | wave
  /-- A `struct.error`: a number that the header of a WAV file does not hold. -/
  | header
  /-- An `OSError`. -/
  | os
  | identity
  | busy
  | unavailable
  | timeout
  | tooLarge
  | invalidContent
  /-- No `Exception`, such as an interrupt. -/
  | interrupted
  deriving DecidableEq, Repr

/-- The text of an error, unless it comes from elsewhere or names a value. -/
def StorageError.reason : StorageError → Option String
  | .valueError reason => some reason
  | .identity => some "remote-recording-identity-mismatch"
  | .busy => some "remote-recording-reader-busy"
  | .unavailable => some "remote-recording-read-failed"
  | .timeout => some "remote-recording-read-timeout"
  | .tooLarge => some "remote-recording-too-large"
  | .invalidContent => some "remote-recording-invalid-content"
  | .invalidUrl | .audioFormat | .duration | .wave | .header | .os | .interrupted => none

def isSegmentChar (c : Char) : Bool := c.isAlphanum || c ∈ ['.', '_', '-']

/-- `_OBJECT_SEGMENT`. -/
def objectSegment : List Char → Bool
  | [] => false
  | c :: cs => c.isAlphanum && cs.length ≤ 127 && cs.all isSegmentChar

/-- `_validate_object_segment`. -/
def validateObjectSegment (value : List Char) (field : String) : Except StorageError Unit :=
  if objectSegment value then .ok ()
  else .error (.valueError (field ++ " must be a safe object-key segment"))

def isBucketEdge (c : Char) : Bool := c.isLower || c.isDigit

/-- `_BUCKET_NAME`. -/
def bucketName (bucket : List Char) : Bool :=
  3 ≤ bucket.length && bucket.length ≤ 63 && bucket.head?.any isBucketEdge &&
    bucket.getLast?.any isBucketEdge && bucket.all fun c => isBucketEdge c || c ∈ ['.', '-']

/-- A part of a dotted address: a decimal number below 256 without leading zeros. -/
def addressPart (part : List Char) : Bool :=
  part ≠ [] && part.length ≤ 3 && part.all Char.isDigit && (part.length = 1 || part.head? ≠ some '0') &&
    Nat.ofDigitChars 10 part 0 ≤ 255

/-- A bucket name that `ipaddress.ip_address` reads. -/
def isAddress (bucket : List Char) : Bool :=
  let parts := bucket.splitOn '.'
  parts.length = 4 && parts.all addressPart

/-- `_validate_bucket`. -/
def validateBucket (bucket : List Char) : Except StorageError Unit :=
  if ¬ bucketName bucket ∨ ['.', '.'] <:+: bucket then
    .error (.valueError "bucket must be a valid DNS-style S3 bucket name")
  else if isAddress bucket then
    .error (.valueError "bucket must not be formatted as an IP address")
  else .ok ()

/-- `prefix.strip("/")`. -/
def stripSlashes (text : List Char) : List Char :=
  ((text.dropWhile (· = '/')).reverse.dropWhile (· = '/')).reverse

/-- `_validate_prefix`. -/
def validatePrefix (text : List Char) : Except StorageError (List Char) :=
  let normalized := stripSlashes text
  if normalized = [] then .ok []
  else do
    let _ ← (normalized.splitOn '/').mapM (validateObjectSegment · "prefix")
    return normalized

/-! ## Files -/

/-- A WAV file: its parameters and its frames. -/
structure SilentWav where
  channels : ℤ
  sampleWidth : ℕ
  frameRate : ℤ
  frames : List UInt8
  deriving DecidableEq, Repr

/-- `bool(document)`. -/
def truthy : Json → Bool
  | .null => false
  | .bool b => b
  | .int n => n ≠ 0
  | .float q => q ≠ 0
  | .negZero => false
  | .str s => s ≠ ""
  | .arr items => ! items.isEmpty
  | .obj fields => ! fields.isEmpty

/-- The integers of `isinstance(document, int)`, which include the booleans. -/
def asInt? : Json → Option ℤ
  | .int n => some n
  | .bool b => some (if b then 1 else 0)
  | _ => none

/-- `_sample_width`. -/
def sampleWidth (encoding : Option Json) : ℕ :=
  if encoding.bind Json.str? = some "mulaw" then 1 else 2

/-- `_silence_frame`. -/
def silenceFrame (sampleWidth : ℕ) (channels : ℤ) : List UInt8 :=
  if sampleWidth = 1 then List.replicate channels.toNat 128
  else List.replicate (sampleWidth * channels.toNat) 0

/-- What the header of a WAV file holds: 16 bits for the channels and the bytes of a frame, 32 for
the rate, the bytes of a second and the length. -/
def HeaderFits (channels rate : ℤ) (sampleWidth length : ℕ) : Prop :=
  (channels < 65536 ∧ channels * sampleWidth < 65536) ∧
    (rate < 4294967296 ∧ channels * rate * sampleWidth < 4294967296) ∧ 36 + length < 4294967296

instance (channels rate : ℤ) (sampleWidth length : ℕ) :
    Decidable (HeaderFits channels rate sampleWidth length) :=
  inferInstanceAs (Decidable (_ ∧ _ ∧ _))

/-- The number of frames of a duration, `round(rate * (duration_ms / 1000.0))`. -/
def frameCount (rate : ℤ) (durationMs : ℚ) : ℕ :=
  (roundHalfEven (nearest (rate * nearest (durationMs / 1000)))).toNat

/-- `_write_silent_wav`: the file that is written. The checks of the parameters are those of
`wave`. -/
def writeSilentWav (audioFormat : Json) (durationMs : ℚ) : Except StorageError SilentWav :=
  let rate := match audioFormat.get? "rate" with
    | some rate => if truthy rate then some rate else audioFormat.get? "output_rate"
    | none => audioFormat.get? "output_rate"
  match rate.bind asInt?, (audioFormat.get? "channels").bind asInt? with
  | some rate, some channels =>
      if durationMs < 0 then .error .duration
      else if channels < 1 ∨ rate ≤ 0 then .error .wave
      else
        let width := sampleWidth (audioFormat.get? "encoding")
        let frames :=
          (List.replicate (frameCount rate durationMs) (silenceFrame width channels)).flatten
        if HeaderFits channels rate width frames.length then
          .ok { channels, sampleWidth := width, frameRate := rate, frames }
        else .error .header
  | _, _ => .error .audioFormat

/-! ## The sink -/

/-- The key of a recording. -/
def objectKey (keyPrefix : List Char) (runId stage : String) : List Char :=
  ['/'].intercalate ([keyPrefix, runId.toList, stage.toList ++ ".wav".toList].filter (· ≠ []))

structure MinioRecordingSink where
  bucket : List Char
  keyPrefix : List Char
  bucket_valid : validateBucket bucket = .ok ()
  prefix_valid : ∃ text, validatePrefix text = .ok keyPrefix

/-- The arguments of `fput_object`. -/
structure PutObject where
  bucketName : List Char
  objectName : List Char
  file : SilentWav
  contentType : String

namespace MinioRecordingSink

/-- `__init__`. -/
def make (bucket keyPrefix : String) : Except StorageError MinioRecordingSink :=
  match hbucket : validateBucket bucket.toList with
  | .error e => .error e
  | .ok () =>
      match hnormal : validatePrefix keyPrefix.toList with
      | .error e => .error e
      | .ok normalized => .ok ⟨bucket.toList, normalized, hbucket, _, hnormal⟩

/-- `write_stage_wav`: what is put, and the artifact. -/
def writeStageWav (sink : MinioRecordingSink) (runId stage : String) (audioFormat : Json)
    (durationMs : ℚ) : Except StorageError (PutObject × RecordingArtifact) := do
  validateObjectSegment runId.toList "run_id"
  validateObjectSegment stage.toList "stage"
  let objectName := objectKey sink.keyPrefix runId stage
  let file ← writeSilentWav audioFormat durationMs
  return (⟨sink.bucket, objectName, file, "audio/wav"⟩,
    { stage
      uri := String.ofList ("s3://".toList ++ sink.bucket ++ '/' :: objectName)
      format := audioFormat
      durationMs })

end MinioRecordingSink

/-! ## The reader -/

structure MinioRecordingReader where
  bucket : List Char
  keyPrefix : List Char
  maxBytes : ℕ
  timeoutSeconds : ℚ
  maxConcurrentReads : ℕ
  bucket_valid : validateBucket bucket = .ok ()
  prefix_valid : ∃ text, validatePrefix text = .ok keyPrefix
  header_fits : 44 ≤ maxBytes
  timeout_pos : 0 < timeoutSeconds
  reads_pos : 0 < maxConcurrentReads
  capacity : maxBytes * maxConcurrentReads ≤ 128 * 1024 * 1024

/-- What a read of a response gives. -/
inductive Reply where
  /-- Bytes, or nothing. -/
  | chunk (bytes : List UInt8)
  /-- Something that is not bytes. -/
  | other
  | raises
  | interrupts

/-- What `get_object` gives; a response answers by what it has handed out and by the amount that
is asked for. -/
inductive Opening where
  | response (reply : List UInt8 → ℕ → Reply)
  | raises
  | interrupts

/-- `get_object`, by bucket, object and length. -/
abbrev ReadClient := List Char → List Char → ℕ → Opening

/-- What a call does outside of itself. -/
inductive ReadEvent where
  | acquire
  | getObject (bucketName objectName : List Char) (length : ℕ)
  | close
  | release
  deriving DecidableEq, Repr

/-- The loop of `_read_object`. `clock n` is the reading before the `n`-th read. -/
def readLoop (maxBytes : ℕ) (deadline : ℚ) (clock : ℕ → ℚ) (reply : List UInt8 → ℕ → Reply)
    (n : ℕ) (payload : List UInt8) : Except StorageError (List UInt8) :=
  if payload.length ≤ maxBytes then
    if deadline ≤ clock n then .error .timeout
    else
      match reply payload (min (64 * 1024) (maxBytes + 1 - payload.length)) with
      | .chunk [] => .ok payload
      | .chunk (b :: bytes) => readLoop maxBytes deadline clock reply (n + 1) (payload ++ b :: bytes)
      | .other => .error .unavailable
      | .raises => .error .unavailable
      | .interrupts => .error .interrupted
  else .ok payload
termination_by maxBytes + 1 - payload.length
decreasing_by
  simp only [List.length_append, List.length_cons]
  omega

/-- The bytes of an ASCII text. -/
def ascii (text : String) : List UInt8 := text.toList.map fun c => UInt8.ofNat c.toNat

/-- The first bytes of a WAV file: `RIFF`, a length, `WAVE`. -/
def HasWavHeader (payload : List UInt8) : Prop :=
  12 ≤ payload.length ∧ payload.take 4 = ascii "RIFF" ∧ (payload.drop 8).take 4 = ascii "WAVE"

instance (payload : List UInt8) : Decidable (HasWavHeader payload) :=
  inferInstanceAs (Decidable (_ ∧ _ ∧ _))

/-- The checks after the loop. -/
def checkPayload (maxBytes : ℕ) (payload : List UInt8) : Except StorageError (List UInt8) :=
  if payload.length > maxBytes then .error .tooLarge
  else if HasWavHeader payload then .ok payload
  else .error .invalidContent

namespace MinioRecordingReader

/-- `__init__`. -/
def make (bucket keyPrefix : String) (maxBytes : ℤ) (timeoutSeconds : ℚ)
    (maxConcurrentReads : ℤ) : Except StorageError MinioRecordingReader :=
  match hbucket : validateBucket bucket.toList with
  | .error e => .error e
  | .ok () =>
      if hheader : maxBytes < 44 then .error (.valueError "max_bytes must allow a WAV header")
      else if htimeout : timeoutSeconds ≤ 0 then
        .error (.valueError "timeout_seconds must be positive")
      else if hreads : maxConcurrentReads ≤ 0 then
        .error (.valueError "max_concurrent_reads must be positive")
      else if hcapacity : maxBytes * maxConcurrentReads > 128 * 1024 * 1024 then
        .error (.valueError "remote recording in-flight capacity must not exceed 128 MiB")
      else
        match hnormal : validatePrefix keyPrefix.toList with
        | .error e => .error e
        | .ok normalized => .ok
            { bucket := bucket.toList
              keyPrefix := normalized
              maxBytes := maxBytes.toNat
              timeoutSeconds
              maxConcurrentReads := maxConcurrentReads.toNat
              bucket_valid := hbucket
              prefix_valid := ⟨_, hnormal⟩
              header_fits := by omega
              timeout_pos := not_le.mp htimeout
              reads_pos := by omega
              capacity := by
                have hnonneg : 0 ≤ maxBytes ∧ 0 ≤ maxConcurrentReads := by omega
                zify
                rw [Int.toNat_of_nonneg hnonneg.1, Int.toNat_of_nonneg hnonneg.2]
                exact not_lt.mp hcapacity }

/-- `_read_object`. -/
def readObject (reader : MinioRecordingReader) (client : ReadClient) (clock : ℕ → ℚ)
    (objectName : List Char) : Except StorageError (List UInt8) × List ReadEvent :=
  let get := ReadEvent.getObject reader.bucket objectName (reader.maxBytes + 1)
  match client reader.bucket objectName (reader.maxBytes + 1) with
  | .raises => (.error .unavailable, [get])
  | .interrupts => (.error .interrupted, [get])
  | .response reply =>
      let deadline := clock 0 + reader.timeoutSeconds
      match readLoop reader.maxBytes deadline clock reply 1 [] with
      | .error e => (.error e, [get, .close])
      | .ok payload => (checkPayload reader.maxBytes payload, [get, .close])

/-- `read_wav`, when `free` slots are free. -/
def readWav (check : Url.NetlocCheck) (reader : MinioRecordingReader) (client : ReadClient)
    (clock : ℕ → ℚ) (free : ℕ) (uri runId stage : String) :
    Except StorageError (List UInt8) × List ReadEvent :=
  match validateObjectSegment runId.toList "run_id", validateObjectSegment stage.toList "stage" with
  | .error e, _ => (.error e, [])
  | .ok (), .error e => (.error e, [])
  | .ok (), .ok () =>
      let objectName := objectKey reader.keyPrefix runId stage
      match Url.urlparse check uri.toList with
      | none => (.error .invalidUrl, [])
      | some parsed =>
          if parsed.scheme ≠ "s3".toList ∨ parsed.netloc ≠ reader.bucket ∨
              parsed.path ≠ '/' :: objectName ∨ parsed.params ≠ [] ∨ parsed.query ≠ [] ∨
              parsed.fragment ≠ [] then
            (.error .identity, [])
          else if free = 0 then (.error .busy, [])
          else
            let (result, events) := reader.readObject client clock objectName
            (result, .acquire :: events ++ [.release])

end MinioRecordingReader

/-! ## Keys -/

theorem lt_of_isAlphanum {c : Char} (h : c.isAlphanum = true) : c.toNat < 128 := by
  change ((decide (c.val ≥ 'A'.val ∧ c.val ≤ 'Z'.val) || (c.val ≥ 'a'.val && c.val ≤ 'z'.val)) ||
    (c.val ≥ '0'.val && c.val ≤ '9'.val)) = true at h
  simp only [Bool.or_eq_true, Bool.and_eq_true, decide_eq_true_eq, UInt32.le_iff_toNat_le,
    ge_iff_le] at h
  change ((65 ≤ c.toNat ∧ c.toNat ≤ 90) ∨ (97 ≤ c.toNat ∧ c.toNat ≤ 122)) ∨
    (48 ≤ c.toNat ∧ c.toNat ≤ 57) at h
  omega

/-- A character of a segment has no meaning in a URL. -/
theorem segmentChar_spec {c : Char} (h : isSegmentChar c = true) :
    Url.Plain c ∧ c.toNat < 128 ∧ c ∉ ['/', '[', ']'] := by
  have hlt : c.toNat < 128 := by
    simp only [isSegmentChar, Bool.or_eq_true, decide_eq_true_eq, List.mem_cons, List.not_mem_nil,
      or_false] at h
    rcases h with h | rfl | rfl | rfl
    · exact lt_of_isAlphanum h
    all_goals decide
  have hascii : ∀ n < 128, isSegmentChar (Char.ofNat n) = true →
      Url.Plain (Char.ofNat n) ∧ Char.ofNat n ∉ ['/', '[', ']'] := by
    decide
  have hc := hascii c.toNat hlt
  rw [Char.ofNat_toNat] at hc
  exact ⟨(hc h).1, hlt, (hc h).2⟩

theorem isSegmentChar_of_mem {cs : List Char} (h : objectSegment cs = true) :
    ∀ c ∈ cs, isSegmentChar c = true := by
  cases cs with
  | nil => simp
  | cons c cs =>
      simp only [objectSegment, Bool.and_eq_true, List.all_eq_true] at h
      obtain ⟨⟨hc, -⟩, hcs⟩ := h
      intro d hd
      rcases List.mem_cons.mp hd with rfl | hd
      · rw [isSegmentChar, hc, Bool.true_or]
      · exact hcs d hd

theorem ne_nil_of_objectSegment {cs : List Char} (h : objectSegment cs = true) : cs ≠ [] := by
  rintro rfl
  cases h

theorem isSegmentChar_of_bucket {bucket : List Char} (h : validateBucket bucket = .ok ()) :
    ∀ c ∈ bucket, isSegmentChar c = true := by
  simp only [validateBucket] at h
  split_ifs at h with hname haddress
  have hname : bucketName bucket = true := by
    by_contra hnot
    exact hname (Or.inl hnot)
  simp only [bucketName, Bool.and_eq_true, List.all_eq_true] at hname
  intro c hc
  have hchar := hname.2 c hc
  simp only [isBucketEdge, Bool.or_eq_true, decide_eq_true_eq, List.mem_cons, List.not_mem_nil,
    or_false] at hchar
  rcases hchar with (hchar | hchar) | rfl | rfl
  · have halphanum : c.isAlphanum = true := by
      change (c.isUpper || c.isLower || c.isDigit) = true
      rw [hchar, Bool.or_true, Bool.true_or]
    rw [isSegmentChar, halphanum, Bool.true_or]
  · simp [isSegmentChar, Char.isAlphanum, hchar]
  · decide
  · decide

theorem mem_intercalate {c mark : Char} {parts : List (List Char)}
    (h : c ∈ [mark].intercalate parts) : c = mark ∨ ∃ part ∈ parts, c ∈ part := by
  by_cases hmark : c = mark
  · exact Or.inl hmark
  · exact Or.inr ((mem_intercalate_iff hmark).mp h)

theorem validateObjectSegment_eq_ok_iff {value : List Char} {field : String} :
    validateObjectSegment value field = .ok () ↔ objectSegment value = true := by
  simp only [validateObjectSegment]
  split_ifs with h <;> simp [h]

/-- The prefix consists of segments. -/
theorem isSegmentChar_of_prefix {text keyPrefix : List Char}
    (h : validatePrefix text = .ok keyPrefix) :
    ∀ c ∈ keyPrefix, c = '/' ∨ isSegmentChar c = true := by
  simp only [validatePrefix] at h
  split_ifs at h with hempty
  · cases h
    simp
  · obtain ⟨checked, hchecked, h⟩ := bind_eq_ok.mp h
    cases h
    rw [mapM_eq_ok_iff] at hchecked
    intro c hc
    rw [← @List.intercalate_splitOn Char (stripSlashes text) _ _ '/'] at hc
    rcases mem_intercalate hc with rfl | ⟨segment, hsegment, hc⟩
    · exact Or.inl rfl
    · obtain ⟨_, -, hok⟩ := exists_mem_of_forall₂ hchecked.flip hsegment
      exact Or.inr (isSegmentChar_of_mem (validateObjectSegment_eq_ok_iff.mp hok) c hc)

/-- What stands before the run in a key. -/
def keyHead (keyPrefix : List Char) : List Char :=
  if keyPrefix = [] then [] else keyPrefix ++ ['/']

theorem objectKey_eq (keyPrefix : List Char) {runId : String} (stage : String)
    (hrun : runId.toList ≠ []) :
    objectKey keyPrefix runId stage =
      keyHead keyPrefix ++ (runId.toList ++ '/' :: (stage.toList ++ ".wav".toList)) := by
  have hstage : stage.toList ++ ".wav".toList ≠ [] := by simp
  by_cases hempty : keyPrefix = []
  · simp [objectKey, keyHead, hempty, hrun, List.intercalate]
  · simp [objectKey, keyHead, hempty, hrun, List.intercalate]

theorem slash_notMem {cs : List Char} (h : objectSegment cs = true) : '/' ∉ cs := by
  intro hmem
  exact absurd (isSegmentChar_of_mem h _ hmem) (by decide)

/-- A key belongs to one run and one stage. -/
theorem objectKey_inj {keyPrefix : List Char} {runId runId' stage stage' : String}
    (hrun : objectSegment runId.toList = true) (hrun' : objectSegment runId'.toList = true)
    (h : objectKey keyPrefix runId stage = objectKey keyPrefix runId' stage') :
    runId = runId' ∧ stage = stage' := by
  rw [objectKey_eq _ _ (ne_nil_of_objectSegment hrun),
    objectKey_eq _ _ (ne_nil_of_objectSegment hrun')] at h
  obtain ⟨hrunId, hstage⟩ := append_mark_inj (slash_notMem hrun) (slash_notMem hrun')
    (List.append_cancel_left h)
  exact ⟨String.toList_inj.mp hrunId, String.toList_inj.mp (List.append_cancel_right hstage)⟩

/-- The characters of a key have no meaning in a URL, but for its slashes. -/
theorem plain_of_mem_objectKey {text keyPrefix : List Char} {runId stage : String}
    (hnormal : validatePrefix text = .ok keyPrefix) (hrun : objectSegment runId.toList = true)
    (hstage : objectSegment stage.toList = true) :
    ∀ c ∈ objectKey keyPrefix runId stage, Url.Plain c := by
  have hsegment : ∀ {cs : List Char}, objectSegment cs = true → ∀ c ∈ cs, Url.Plain c :=
    fun h c hc => (segmentChar_spec (isSegmentChar_of_mem h c hc)).1
  intro c hkey
  rcases mem_intercalate hkey with rfl | ⟨part, hpart, hc⟩
  · decide
  · have hmem := (List.mem_filter.mp hpart).1
    simp only [List.mem_cons, List.not_mem_nil, or_false] at hmem
    rcases hmem with rfl | rfl | rfl
    · rcases isSegmentChar_of_prefix hnormal c hc with rfl | hchar
      · decide
      · exact (segmentChar_spec hchar).1
    · exact hsegment hrun c hc
    · rcases List.mem_append.mp hc with hc | hc
      · exact hsegment hstage c hc
      · have hwav : ∀ d ∈ ".wav".toList, Url.Plain d := by decide
        exact hwav c hc

/-! ## URIs -/

/-- What the sink puts and returns. -/
theorem writeStageWav_eq_ok {sink : MinioRecordingSink} {runId stage : String} {format : Json}
    {durationMs : ℚ} {put : PutObject} {artifact : RecordingArtifact}
    (h : sink.writeStageWav runId stage format durationMs = .ok (put, artifact)) :
    objectSegment runId.toList = true ∧ objectSegment stage.toList = true ∧
      put.bucketName = sink.bucket ∧ put.objectName = objectKey sink.keyPrefix runId stage ∧
      artifact.uri.toList = "s3://".toList ++ sink.bucket ++ '/' :: put.objectName := by
  simp only [MinioRecordingSink.writeStageWav] at h
  obtain ⟨_, hrun, h⟩ := bind_eq_ok.mp h
  obtain ⟨_, hstage, h⟩ := bind_eq_ok.mp h
  obtain ⟨file, -, h⟩ := bind_eq_ok.mp h
  cases h
  exact ⟨validateObjectSegment_eq_ok_iff.mp hrun, validateObjectSegment_eq_ok_iff.mp hstage, rfl,
    rfl, String.toList_ofList⟩

/-- A URI of the sink is parsed into its bucket and its key. -/
theorem urlparse_uri (check : Url.NetlocCheck) {sink : MinioRecordingSink} {runId stage : String}
    {format : Json} {durationMs : ℚ} {put : PutObject} {artifact : RecordingArtifact}
    (h : sink.writeStageWav runId stage format durationMs = .ok (put, artifact)) :
    Url.urlparse check artifact.uri.toList =
      some ⟨"s3".toList, sink.bucket, '/' :: put.objectName, [], [], []⟩ := by
  obtain ⟨hrun, hstage, -, hobject, huri⟩ := writeStageWav_eq_ok h
  obtain ⟨text, hnormal⟩ := sink.prefix_valid
  have hscheme : "s3".toList = ['s', '3'] := by decide
  have hmark : "s3://".toList = ['s', '3', ':', '/', '/'] := by decide
  have hparsed := @Url.urlparse_plain check ['3'] sink.bucket (objectKey sink.keyPrefix runId stage)
    's' (by decide) (by decide) (by decide) (by decide)
    (fun c hc => segmentChar_spec (isSegmentChar_of_bucket sink.bucket_valid c hc))
    (plain_of_mem_objectKey hnormal hrun hstage)
  rw [huri, hobject, hscheme, hmark]
  exact hparsed

/-- Reading a URI of the sink: the pairs are compared before a slot is taken. -/
theorem readWav_uri (check : Url.NetlocCheck) {sink : MinioRecordingSink} {runId stage : String}
    {format : Json} {durationMs : ℚ} {put : PutObject} {artifact : RecordingArtifact}
    (h : sink.writeStageWav runId stage format durationMs = .ok (put, artifact))
    {reader : MinioRecordingReader} (hbucket : reader.bucket = sink.bucket)
    (client : ReadClient) (clock : ℕ → ℚ) (free : ℕ) {runId' stage' : String}
    (hrun' : objectSegment runId'.toList = true) (hstage' : objectSegment stage'.toList = true) :
    reader.readWav check client clock free artifact.uri runId' stage' =
      if put.objectName ≠ objectKey reader.keyPrefix runId' stage' then (.error .identity, [])
      else if free = 0 then (.error .busy, [])
      else
        ((reader.readObject client clock put.objectName).1,
          .acquire :: (reader.readObject client clock put.objectName).2 ++ [.release]) := by
  simp only [MinioRecordingReader.readWav, validateObjectSegment_eq_ok_iff.mpr hrun',
    validateObjectSegment_eq_ok_iff.mpr hstage', urlparse_uri check h, hbucket, ne_eq,
    not_true_eq_false, false_or, or_false, List.cons.injEq, true_and]
  by_cases hkey : put.objectName = objectKey reader.keyPrefix runId' stage'
  · rw [if_neg (not_not.mpr hkey), if_neg (not_not.mpr hkey), hkey]
  · rw [if_pos hkey, if_pos hkey]

/-! ## The loop -/

/-- A response that hands out a content, in pieces that are not empty and no longer than what is
asked for. -/
structure HandsOut (content : List UInt8) (reply : List UInt8 → ℕ → Reply) : Prop where
  piece : ∀ sent rest amount, content = sent ++ rest → rest ≠ [] → 0 < amount →
    ∃ b bytes, b :: bytes <+: rest ∧ (b :: bytes).length ≤ amount ∧
      reply sent amount = .chunk (b :: bytes)
  finished : ∀ amount, reply content amount = .chunk []

/-- A response that hands out a content in pieces of given sizes. -/
def inPieces (size : ℕ → ℕ) (content sent : List UInt8) (amount : ℕ) : Reply :=
  .chunk ((content.drop sent.length).take (min (size sent.length + 1) amount))

theorem handsOut_inPieces (size : ℕ → ℕ) (content : List UInt8) :
    HandsOut content (inPieces size content) := by
  refine ⟨?_, ?_⟩
  · intro sent rest amount hcontent hrest hamount
    obtain ⟨b, tail, rfl⟩ := List.exists_cons_of_ne_nil hrest
    obtain ⟨k, hk⟩ : ∃ k, min (size sent.length + 1) amount = k + 1 :=
      ⟨min (size sent.length + 1) amount - 1, by omega⟩
    refine ⟨b, tail.take k, ?_, ?_, ?_⟩
    · exact (List.prefix_append_right_inj [b]).mpr (List.take_prefix k tail)
    · simp only [List.length_cons, List.length_take]
      omega
    · rw [inPieces, hcontent, List.drop_left, hk, List.take_succ_cons]
  · intro amount
    rw [inPieces, List.drop_length, List.take_nil]

/-- The loop reads the content up to one byte past the limit. -/
theorem readLoop_handsOut {maxBytes : ℕ} {deadline : ℚ} {clock : ℕ → ℚ} {served : List UInt8}
    {reply : List UInt8 → ℕ → Reply} (h : HandsOut served reply) {n : ℕ}
    (hclock : ∀ m, n ≤ m → clock m < deadline) {payload : List UInt8} (hpayload : payload <+: served)
    (hlength : payload.length ≤ maxBytes + 1) :
    readLoop maxBytes deadline clock reply n payload = .ok (served.take (maxBytes + 1)) := by
  induction hleft : maxBytes + 1 - payload.length using Nat.strong_induction_on
    generalizing n payload with
  | _ left ih =>
      rw [readLoop]
      by_cases hroom : payload.length ≤ maxBytes
      · rw [if_pos hroom, if_neg (not_le.mpr (hclock n le_rfl))]
        obtain ⟨rest, rfl⟩ := hpayload
        by_cases hrest : rest = []
        · subst hrest
          rw [List.append_nil] at h ⊢
          rw [h.finished, List.take_of_length_le hlength]
        · have hamount : 0 < min (64 * 1024) (maxBytes + 1 - payload.length) := by omega
          obtain ⟨b, bytes, hpiece, hle, hreply⟩ := h.piece payload rest _ rfl hrest hamount
          have hshort : (b :: bytes).length ≤ maxBytes + 1 - payload.length :=
            hle.trans (min_le_right _ _)
          simp only [List.length_cons] at hshort
          rw [hreply]
          refine ih _ ?_ (fun m hm => hclock m (by omega)) ?_ ?_ rfl
          · simp only [List.length_append, List.length_cons]
            omega
          · exact (List.prefix_append_right_inj payload).mpr hpiece
          · simp only [List.length_append, List.length_cons]
            omega
      · rw [if_neg hroom]
        have hfull : payload.length = maxBytes + 1 := by omega
        rw [← hfull, ← List.prefix_iff_eq_take.mp hpayload]

theorem checkPayload_take (maxBytes : ℕ) (content : List UInt8) :
    checkPayload maxBytes (content.take (maxBytes + 1)) = checkPayload maxBytes content := by
  by_cases hlong : maxBytes < content.length
  · have htake : (content.take (maxBytes + 1)).length = maxBytes + 1 := by
      rw [List.length_take]
      omega
    rw [checkPayload, checkPayload, if_pos (by omega), if_pos hlong]
  · rw [List.take_of_length_le (by omega)]

/-- An object whose content is handed out in any pieces, without an error, is read. -/
theorem readObject_handsOut {reader : MinioRecordingReader} {client : ReadClient} {clock : ℕ → ℚ}
    {objectName : List Char} {content served : List UInt8} {reply : List UInt8 → ℕ → Reply}
    (hopen : client reader.bucket objectName (reader.maxBytes + 1) = .response reply)
    (h : HandsOut served reply) (hserved : served <+: content)
    (hlong : content.take (reader.maxBytes + 1) <+: served)
    (hclock : ∀ n, clock (n + 1) < clock 0 + reader.timeoutSeconds) :
    (reader.readObject client clock objectName).1 = checkPayload reader.maxBytes content := by
  have hloop := @readLoop_handsOut reader.maxBytes (clock 0 + reader.timeoutSeconds) clock _ _ h 1
    (fun m hm => by
      obtain ⟨k, rfl⟩ := Nat.exists_eq_add_of_le' hm
      exact hclock k) [] List.nil_prefix (Nat.zero_le _)
  have hsame : served.take (reader.maxBytes + 1) = content.take (reader.maxBytes + 1) := by
    apply (hserved.take _).eq_of_length
    have hle := hserved.length_le
    have hge := hlong.length_le
    simp only [List.length_take] at hge ⊢
    omega
  simp only [MinioRecordingReader.readObject, hopen, hloop, hsame, checkPayload_take]

/-! ## Slots -/

/-- The free slots after some events. -/
def freeAfter (free : ℕ) (events : List ReadEvent) : ℕ :=
  events.foldl (fun free event =>
    match event with
    | .acquire => free - 1
    | .release => free + 1
    | _ => free) free

/-- Reading opens the object, and closes what was opened. -/
theorem events_readObject (reader : MinioRecordingReader) (client : ReadClient) (clock : ℕ → ℚ)
    (objectName : List Char) :
    ∃ rest, (reader.readObject client clock objectName).2 =
        .getObject reader.bucket objectName (reader.maxBytes + 1) :: rest ∧
      (rest = [] ∨ rest = [.close]) := by
  simp only [MinioRecordingReader.readObject]
  cases client reader.bucket objectName (reader.maxBytes + 1) with
  | raises => exact ⟨[], rfl, Or.inl rfl⟩
  | interrupts => exact ⟨[], rfl, Or.inl rfl⟩
  | response reply =>
      simp only
      cases readLoop reader.maxBytes (clock 0 + reader.timeoutSeconds) clock reply 1 [] with
      | error e => exact ⟨[.close], rfl, Or.inr rfl⟩
      | ok payload => exact ⟨[.close], rfl, Or.inr rfl⟩

/-- No slot is taken or given back while an object is read. -/
theorem freeAfter_readObject (reader : MinioRecordingReader) (client : ReadClient) (clock : ℕ → ℚ)
    (objectName : List Char) (free : ℕ) :
    freeAfter free (reader.readObject client clock objectName).2 = free := by
  obtain ⟨rest, hevents, rfl | rfl⟩ := events_readObject reader client clock objectName <;>
    rw [hevents] <;> rfl

/-- A slot that was taken is given back, whatever happens. -/
theorem freeAfter_readWav (check : Url.NetlocCheck) (reader : MinioRecordingReader)
    (client : ReadClient) (clock : ℕ → ℚ) (free : ℕ) (uri runId stage : String) :
    freeAfter free (reader.readWav check client clock free uri runId stage).2 = free := by
  simp only [MinioRecordingReader.readWav]
  split
  · rfl
  · rfl
  · split
    · rfl
    · split_ifs with hidentity hbusy
      · rfl
      · rfl
      · simp only [freeAfter, List.cons_append, List.foldl_cons, List.foldl_append, List.foldl_nil]
        have hread := freeAfter_readObject reader client clock
          (objectKey reader.keyPrefix runId stage) (free - 1)
        simp only [freeAfter] at hread
        rw [hread]
        omega

/-! ## Sink and reader -/

theorem MinioRecordingSink.of_make {bucket keyPrefix : String} {sink : MinioRecordingSink}
    (h : make bucket keyPrefix = .ok sink) :
    sink.bucket = bucket.toList ∧ validatePrefix keyPrefix.toList = .ok sink.keyPrefix := by
  unfold make at h
  split at h
  · cases h
  · split at h
    · cases h
    · rename_i hnormal
      cases h
      exact ⟨rfl, hnormal⟩

theorem MinioRecordingReader.of_make {bucket keyPrefix : String} {maxBytes maxConcurrentReads : ℤ}
    {timeoutSeconds : ℚ} {reader : MinioRecordingReader}
    (h : make bucket keyPrefix maxBytes timeoutSeconds maxConcurrentReads = .ok reader) :
    reader.bucket = bucket.toList ∧ validatePrefix keyPrefix.toList = .ok reader.keyPrefix := by
  unfold make at h
  split at h
  · cases h
  · split_ifs at h
    split at h
    · cases h
    · rename_i hnormal
      cases h
      exact ⟨rfl, hnormal⟩

theorem checkPayload_eq_ok_iff {maxBytes : ℕ} {payload bytes : List UInt8} :
    checkPayload maxBytes payload = .ok bytes ↔
      bytes = payload ∧ payload.length ≤ maxBytes ∧ HasWavHeader payload := by
  simp only [checkPayload]
  by_cases hlong : payload.length > maxBytes
  · simp only [if_pos hlong, reduceCtorEq, false_iff]
    intro h
    omega
  · by_cases hheader : HasWavHeader payload
    · rw [if_neg hlong, if_pos hheader]
      constructor
      · intro h
        cases h
        exact ⟨rfl, not_lt.mp hlong, hheader⟩
      · rintro ⟨rfl, -, -⟩
        rfl
    · simp [hlong, hheader]

theorem checkPayload_eq_tooLarge_iff {maxBytes : ℕ} {payload : List UInt8} :
    checkPayload maxBytes payload = .error .tooLarge ↔ maxBytes < payload.length := by
  simp only [checkPayload]
  split_ifs <;> simp_all

/-- **Sink and reader agree.** A URI that the sink returned leads the reader to the object that the
sink put. Another pair of run and stage has another object, and its URI is refused before a slot
is taken. A content that is handed out in any pieces is returned exactly when it fits and has the
header of a WAV file, and is too large exactly when it does not fit; the loop ends for every
client. Whatever happens, the slots are as before. -/
theorem recordings_agree (check : Url.NetlocCheck) {bucket keyPrefix : String}
    {maxBytes maxConcurrentReads : ℤ} {timeoutSeconds : ℚ} {sink : MinioRecordingSink}
    {reader : MinioRecordingReader} (hsink : MinioRecordingSink.make bucket keyPrefix = .ok sink)
    (hreader : MinioRecordingReader.make bucket keyPrefix maxBytes timeoutSeconds
      maxConcurrentReads = .ok reader)
    {runId stage : String} {format : Json} {durationMs : ℚ} {put : PutObject}
    {artifact : RecordingArtifact}
    (h : sink.writeStageWav runId stage format durationMs = .ok (put, artifact)) :
    (∀ client clock free, 0 < free → ∃ rest,
      (reader.readWav check client clock free artifact.uri runId stage).2 =
        .acquire :: .getObject put.bucketName put.objectName (reader.maxBytes + 1) :: rest ++
          [.release]) ∧
    (∀ runId' stage' format' durationMs' put' artifact',
      sink.writeStageWav runId' stage' format' durationMs' = .ok (put', artifact') →
      (runId', stage') ≠ (runId, stage) →
        put'.objectName ≠ put.objectName ∧ ∀ client clock free,
          reader.readWav check client clock free artifact'.uri runId stage =
            (.error .identity, [])) ∧
    (∀ (client : ReadClient) (clock : ℕ → ℚ) (free : ℕ) (content served : List UInt8)
        (reply : List UInt8 → ℕ → Reply), 0 < free →
      client put.bucketName put.objectName (reader.maxBytes + 1) = .response reply →
      HandsOut served reply → served <+: content → content.take (reader.maxBytes + 1) <+: served →
      (∀ n, clock (n + 1) < clock 0 + reader.timeoutSeconds) →
        (∀ bytes, (reader.readWav check client clock free artifact.uri runId stage).1 = .ok bytes ↔
          bytes = content ∧ content.length ≤ reader.maxBytes ∧ HasWavHeader content) ∧
        ((reader.readWav check client clock free artifact.uri runId stage).1 = .error .tooLarge ↔
          reader.maxBytes < content.length)) ∧
    ∀ client clock free uri runId stage,
      freeAfter free (reader.readWav check client clock free uri runId stage).2 = free := by
  obtain ⟨hbucket, hnormal⟩ := MinioRecordingSink.of_make hsink
  obtain ⟨hbucket', hnormal'⟩ := MinioRecordingReader.of_make hreader
  have hplace : reader.bucket = sink.bucket := hbucket'.trans hbucket.symm
  have hhead : reader.keyPrefix = sink.keyPrefix :=
    Except.ok.inj (hnormal'.symm.trans hnormal)
  obtain ⟨hrun, hstage, hputBucket, hobject, -⟩ := writeStageWav_eq_ok h
  have hread : ∀ client clock free, 0 < free →
      reader.readWav check client clock free artifact.uri runId stage =
        ((reader.readObject client clock put.objectName).1,
          .acquire :: (reader.readObject client clock put.objectName).2 ++ [.release]) := by
    intro client clock free hfree
    rw [readWav_uri check h hplace client clock free hrun hstage, hhead,
      if_neg (not_not.mpr hobject), if_neg (by omega)]
  refine ⟨fun client clock free hfree => ?_, ?_, ?_, ?_⟩
  · obtain ⟨rest, hevents, -⟩ := events_readObject reader client clock put.objectName
    refine ⟨rest, ?_⟩
    rw [hread client clock free hfree, hevents, hputBucket, hplace]
  · intro runId' stage' format' durationMs' put' artifact' h' hne
    obtain ⟨hrun', -, -, hobject', -⟩ := writeStageWav_eq_ok h'
    have hkeys : put'.objectName ≠ objectKey sink.keyPrefix runId stage := by
      rw [hobject']
      intro hkey
      obtain ⟨rfl, rfl⟩ := objectKey_inj hrun' hrun hkey
      exact hne rfl
    refine ⟨hobject ▸ hkeys, fun client clock free => ?_⟩
    rw [readWav_uri check h' hplace client clock free hrun hstage, hhead, if_pos hkeys]
  · intro client clock free content served reply hfree hopen hout hserved hlong hclock
    rw [hputBucket, ← hplace] at hopen
    rw [hread client clock free hfree, readObject_handsOut hopen hout hserved hlong hclock]
    exact ⟨fun bytes => checkPayload_eq_ok_iff, checkPayload_eq_tooLarge_iff⟩
  · intro client clock free uri runId stage
    exact freeAfter_readWav check reader client clock free uri runId stage

/-- A WAV file of 16 bytes. -/
def shortWav : List UInt8 := ascii "RIFF" ++ [8, 0, 0, 0] ++ ascii "WAVEfmt "

def monoFormat : Json := .obj [("rate", .int 16000), ("channels", .int 1)]

theorem exists_writeSilentWav_mono : ∃ file, writeSilentWav monoFormat 20 = .ok file := by
  have hok : (writeSilentWav monoFormat 20).toOption.isSome = true := by decide +kernel
  cases hwrite : writeSilentWav monoFormat 20 with
  | error e => simp [hwrite, Except.toOption] at hok
  | ok file => exact ⟨file, rfl⟩

theorem exists_writeStageWav_mono (sink : MinioRecordingSink) {runId stage : String}
    (hrun : validateObjectSegment runId.toList "run_id" = .ok ())
    (hstage : validateObjectSegment stage.toList "stage" = .ok ()) :
    ∃ put artifact, sink.writeStageWav runId stage monoFormat 20 = .ok (put, artifact) := by
  obtain ⟨file, hfile⟩ := exists_writeSilentWav_mono
  simp only [MinioRecordingSink.writeStageWav, hrun, hstage, hfile]
  exact ⟨_, _, rfl⟩

theorem recordings_agree_shortWav :
    ∃ (sink : MinioRecordingSink) (reader : MinioRecordingReader) (put : PutObject)
        (artifact : RecordingArtifact),
      MinioRecordingSink.make "voxbench" "recordings/eu" = .ok sink ∧
      MinioRecordingReader.make "voxbench" "recordings/eu" 64 5 2 = .ok reader ∧
      sink.writeStageWav "run-1" "stt" monoFormat 20 = .ok (put, artifact) ∧
      (reader.readWav ⟨fun _ => true, fun _ _ => rfl⟩
        (fun _ _ _ => .response (inPieces (fun _ => 4) shortWav)) (fun _ => 0) 1 artifact.uri
        "run-1" "stt").1 = .ok shortWav := by
  obtain ⟨sink, hsink⟩ : ∃ sink : MinioRecordingSink,
      MinioRecordingSink.make "voxbench" "recordings/eu" = .ok sink := ⟨_, rfl⟩
  obtain ⟨put, artifact, hwrite⟩ := @exists_writeStageWav_mono sink "run-1" "stt" rfl rfl
  obtain ⟨reader, hreader, hbytes, htimeout⟩ : ∃ reader : MinioRecordingReader,
      MinioRecordingReader.make "voxbench" "recordings/eu" 64 5 2 = .ok reader ∧
      reader.maxBytes = 64 ∧ reader.timeoutSeconds = 5 := ⟨_, rfl, rfl, rfl⟩
  refine ⟨sink, reader, put, artifact, hsink, hreader, hwrite, ?_⟩
  obtain ⟨-, -, hread, -⟩ :=
    recordings_agree ⟨fun _ => true, fun _ _ => rfl⟩ hsink hreader hwrite
  refine ((hread (fun _ _ _ => .response (inPieces (fun _ => 4) shortWav)) (fun _ => 0) 1 shortWav
    shortWav _ one_pos rfl (handsOut_inPieces _ _) List.prefix_rfl (List.take_prefix _ _) ?_).1
    shortWav).mpr ⟨rfl, ?_, ?_⟩
  · intro _
    rw [htimeout]
    norm_num
  · rw [hbytes]
    decide
  · decide

end VoxBench.EngineHarness
