import VoxBench.ControlPlane.AudioSession
import VoxBench.ControlPlane.Recording
import VoxBench.EngineHarness.LocalStorage
import VoxBench.Lib.PercentCoding

/-!
# The audio of a recording

A recording has a URI. A local one is the percent-coded path of a file; it is read back by the API,
by the verification and by the scorer. `get_run_recording_audio` serves the file of a local
recording, and otherwise fetches the object of a remote one for a request that is authorized.

## Main definitions

* `localRecordingPath`, `fileUriToPath`, `localFileUriPath` — the three readers of URIs.
* `getRunRecordingAudio` — the endpoint, with the calls that it makes to the object store.

## Main results

* `file_uri_round_trip` — the readers return the path that a URI was made of.
* `audio_guarded` — what a request can reach, whatever it asks for.
* `audio_served` — the recordings of both sinks are served.
-/

namespace VoxBench.ControlPlane

open VoxBench.Lib VoxBench.EngineHarness PosixPath

/-! ## URIs of files -/

/-- `Path(unquote(parsed.path))`. -/
def uriPath (decoder : Utf8Decoder) (parsed : Url.ParseResult) : PurePath :=
  PurePath.parse (unquote decoder parsed.path)

section Readers

variable (check : Url.NetlocCheck) (decoder : Utf8Decoder)

/-- `_local_recording_path` of the API. -/
def localRecordingPath (uri : String) : Except StorageError (Option PurePath) :=
  match Url.urlparse check uri.toList with
  | none => .error .invalidUrl
  | some parsed =>
      if parsed.scheme ≠ "file".toList then .ok none else .ok (some (uriPath decoder parsed))

/-- `_file_uri_to_path` of the verification. -/
def fileUriToPath (uri : String) : Except StorageError PurePath :=
  match Url.urlparse check uri.toList with
  | none => .error .invalidUrl
  | some parsed =>
      if parsed.scheme ≠ "file".toList then
        .error (.valueError
          ("verification only supports file:// recording URIs for now: " ++ uri))
      else .ok (uriPath decoder parsed)

/-- `_local_file_uri_path` of the scorer. -/
def localFileUriPath (uri : String) : Except StorageError PurePath :=
  match Url.urlparse check uri.toList with
  | none => .error .invalidUrl
  | some parsed =>
      if parsed.scheme ≠ "file".toList ∨
          parsed.netloc ≠ [] ∧ parsed.netloc ≠ "localhost".toList then
        .error (.valueError "scorer input must be a local file URI")
      else if parsed.query ≠ [] ∨ parsed.fragment ≠ [] then
        .error (.valueError "scorer input URI must not contain query or fragment")
      else .ok (uriPath decoder parsed)

end Readers

/-- The characters that `quote` keeps. -/
def isKept (safe : List Char) (c : Char) : Bool :=
  (c.toNat < 128 && c.isAlphanum) || c ∈ ['_', '.', '-', '~'] || c ∈ safe

theorem quote_eq_coded (text : String) (safe : List Char) :
    quote text safe = String.ofList (coded (isKept safe) text.toList) := by
  simp only [quote, toList_toUTF8_singleton]
  rfl

theorem isKept_slash {c : Char} (h : isKept ['/'] c = true) :
    c.toNat < 128 ∧ c ≠ '%' ∧ Url.Plain c := by
  simp only [isKept, Bool.or_eq_true, Bool.and_eq_true, decide_eq_true_eq, List.mem_cons,
    List.not_mem_nil, or_false] at h
  have hplain : ∀ n < 128, (Char.ofNat n).isAlphanum = true →
      Char.ofNat n ≠ '%' ∧ Url.Plain (Char.ofNat n) := by
    decide
  rcases h with (⟨hascii, halnum⟩ | rfl | rfl | rfl | rfl) | rfl
  · have hc := hplain c.toNat hascii
    rw [Char.ofNat_toNat] at hc
    exact ⟨hascii, hc halnum⟩
  all_goals decide

theorem plain_coded {text : List Char} {c : Char} (h : c ∈ coded (isKept ['/']) text) :
    Url.Plain c := by
  have hdigit : ∀ n < 16, Url.Plain (hexDigit n) := by decide
  rcases mem_coded h with hkept | rfl | ⟨n, hn, rfl⟩
  · exact (isKept_slash hkept).2.2
  · decide
  · exact hdigit n hn

/-- The URI of an absolute path is taken apart into its scheme and the quoted path. -/
theorem urlparse_fileUri (check : Url.NetlocCheck) {text : String} (h : text.toList.head? = some '/') :
    Url.urlparse check ("file://" ++ quote text ['/']).toList =
      some ⟨"file".toList, [], coded (isKept ['/']) text.toList, [], [], []⟩ := by
  obtain ⟨rest, hrest⟩ : ∃ rest, text.toList = '/' :: rest := by
    cases htext : text.toList with
    | nil =>
        rw [htext] at h
        cases h
    | cons c rest =>
        rw [htext] at h
        exact ⟨rest, by rw [Option.some.inj h]⟩
  have hcoded : coded (isKept ['/']) text.toList = '/' :: coded (isKept ['/']) rest := by
    rw [hrest]
    rfl
  have huri : ("file://" ++ quote text ['/']).toList =
      'f' :: "ile".toList ++ ':' :: '/' :: '/' :: [] ++ '/' :: coded (isKept ['/']) rest := by
    rw [String.toList_append, quote_eq_coded, hcoded, String.toList_ofList]
    simp
  rw [huri, hcoded]
  exact Url.urlparse_plain check (by decide) (by decide) (by decide) (by decide)
    (fun d hd => absurd hd List.not_mem_nil) (fun d hd => plain_coded hd)

theorem unquote_quoted (decoder : Utf8Decoder) (text : String) :
    unquote decoder (coded (isKept ['/']) text.toList) = text.toList :=
  unquote_coded (fun _ hc => ⟨(isKept_slash hc).1, (isKept_slash hc).2.1⟩) decoder text

/-- What the three readers make of the URI of an absolute path. -/
theorem readers_fileUri (check : Url.NetlocCheck) (decoder : Utf8Decoder) {text : String}
    (h : text.toList.head? = some '/') :
    localRecordingPath check decoder ("file://" ++ quote text ['/']) =
        .ok (some (PurePath.parse text.toList)) ∧
      fileUriToPath check decoder ("file://" ++ quote text ['/']) =
        .ok (PurePath.parse text.toList) ∧
      localFileUriPath check decoder ("file://" ++ quote text ['/']) =
        .ok (PurePath.parse text.toList) := by
  have hpath : uriPath decoder ⟨"file".toList, [], coded (isKept ['/']) text.toList, [], [], []⟩ =
      PurePath.parse text.toList := by
    rw [uriPath, unquote_quoted]
  simp only [localRecordingPath, fileUriToPath, localFileUriPath, urlparse_fileUri check h, hpath]
  exact ⟨rfl, rfl, rfl⟩

theorem head?_str {path : PurePath} (h : path.WellFormed) (habsolute : path.root ≠ []) :
    path.str.head? = some '/' := by
  have hroot := h.root
  rw [PurePath.str, if_neg (fun hnone => habsolute hnone.1)]
  simp only [List.mem_cons, List.not_mem_nil, or_false] at hroot
  rcases hroot with hroot | hroot | hroot
  · exact absurd hroot habsolute
  · rw [hroot]
    rfl
  · rw [hroot]
    rfl

theorem readers_asUri (check : Url.NetlocCheck) (decoder : Utf8Decoder) {path : PurePath}
    (h : path.WellFormed) (habsolute : path.root ≠ []) :
    localRecordingPath check decoder (asUri path) = .ok (some path) ∧
      fileUriToPath check decoder (asUri path) = .ok path ∧
      localFileUriPath check decoder (asUri path) = .ok path := by
  have hhead : (String.ofList path.str).toList.head? = some '/' := by
    rw [String.toList_ofList]
    exact head?_str h habsolute
  have hread := readers_fileUri check decoder hhead
  rwa [String.toList_ofList, PurePath.parse_str h habsolute] at hread

/-- **URIs of files.** Whatever the text of a root, the working directory, the run and the stage:
the URI of a path below the root leads the API, the verification and the scorer to this path, and
two paths with one URI are the same. -/
theorem file_uri_round_trip (check : Url.NetlocCheck) (decoder : Utf8Decoder) {path path' : PurePath}
    (h : path.WellFormed) (habsolute : path.root ≠ []) (h' : path'.WellFormed)
    (habsolute' : path'.root ≠ []) :
    (localRecordingPath check decoder (asUri path) = .ok (some path) ∧
      fileUriToPath check decoder (asUri path) = .ok path ∧
      localFileUriPath check decoder (asUri path) = .ok path) ∧
    (asUri path = asUri path' → path = path') ∧
    ∀ text : List Char, (path.join text).WellFormed ∧ (path.join text).root ≠ [] := by
  refine ⟨readers_asUri check decoder h habsolute, ?_, ?_⟩
  · intro hsame
    have hread := (readers_asUri check decoder h habsolute).2.1
    rw [hsame, (readers_asUri check decoder h' habsolute').2.1] at hread
    exact (Except.ok.inj hread).symm
  · exact fun text => ⟨h.join text, PurePath.root_join habsolute text⟩

/-! ## The endpoint -/

/-- What `RunApiState` keeps for recordings in an object store. -/
structure RemoteAudio where
  reader : MinioRecordingReader
  accessToken : String
  sessionAuth : Option RemoteAudioSessionAuth
  token_length : 32 ≤ accessToken.length ∧ accessToken.length ≤ 256
  token_ascii : isAscii accessToken.toList = true
  token_solid : accessToken.toList.any Text.isSpace = false

/-- The checks of `__post_init__`. -/
def RemoteAudio.make (reader : Option MinioRecordingReader) (accessToken : Option String)
    (sessionAuth : Option RemoteAudioSessionAuth) : Except String (Option RemoteAudio) :=
  match reader, accessToken with
  | some reader, some accessToken =>
      if h : ¬ (32 ≤ accessToken.length ∧ accessToken.length ≤ 256) ∨
          ¬ isAscii accessToken.toList = true ∨ accessToken.toList.any Text.isSpace = true then
        .error "remote audio access token must be a safe 32..256 character value"
      else .ok (some
        { reader, accessToken, sessionAuth
          token_length := by
            by_contra hlength
            exact h (Or.inl hlength)
          token_ascii := by
            by_contra hascii
            exact h (Or.inr (Or.inl hascii))
          token_solid := by
            by_contra hsolid
            exact h (Or.inr (Or.inr ((Bool.not_eq_false _).mp hsolid))) })
  | none, none =>
      if sessionAuth.isSome then .error "remote audio session requires a remote recording reader"
      else .ok none
  | _, _ => .error "remote recording reader and access token must be configured together"

structure AudioRequest where
  runId : String
  stage : String
  /-- The header, or the empty text. -/
  authorization : String
  cookie : Option String

/-- What the endpoint meets outside of the stored runs. -/
structure AudioWorld where
  check : Url.NetlocCheck
  decoder : Utf8Decoder
  existsFile : PurePath → Bool
  client : ReadClient
  /-- The reading of the clock of the sessions, and those of the reader. -/
  sessionClock : ℚ
  clock : ℕ → ℚ
  /-- The free slots of the reader. -/
  free : ℕ
  /-- The thread of the reader does not return within the timeout. -/
  late : Bool

inductive AudioReply where
  | file (path : PurePath) (mediaType : String)
  | payload (content : List UInt8) (mediaType : String) (headers : List (String × String))
  deriving DecidableEq, Repr

inductive AudioError where
  /-- An `HTTPException`. -/
  | http (statusCode : ℕ) (detail : String) (headers : List (String × String))
  /-- An error that no handler names. -/
  | raised (error : StorageError)
  | typeError
  deriving DecidableEq, Repr

/-- The handlers of `read_wav`. -/
def readFailure : StorageError → AudioError
  | .identity => .http 404 "remote recording identity is not available" []
  | .tooLarge => .http 413 "remote recording exceeds the configured byte limit" []
  | .busy => .http 503 "remote recording reader is busy" [("Retry-After", "1")]
  | .timeout => .http 504 "remote recording read timed out" []
  | .invalidContent => .http 502 "remote recording is not a valid WAV object" []
  | .unavailable => .http 502 "remote recording read failed" []
  | error => .raised error

/-- An error of `_authorize_remote_audio`. -/
def authorizationFailure : AudioSessionError → AudioError
  | .http statusCode detail => .http statusCode detail [("WWW-Authenticate", "Bearer")]
  | _ => .typeError

/-- The part of `get_run_recording_audio` for a recording that is not a local file. -/
def getRemoteAudio (world : AudioWorld) (remote : RemoteAudio) (request : AudioRequest)
    (uri : String) : Except AudioError AudioReply × List ReadEvent :=
  match authorizeRemoteAudio request.authorization request.cookie remote.accessToken
      remote.sessionAuth world.sessionClock with
  | .error e => (.error (authorizationFailure e), [])
  | .ok () =>
      let (result, events) := remote.reader.readWav world.check world.client world.clock world.free
        uri request.runId request.stage
      -- a read that is late goes on in its thread
      if world.late then (.error (.http 504 "remote recording read timed out" []), events)
      else
        match result with
        | .error e => (.error (readFailure e), events)
        | .ok content =>
            (.ok (.payload content "audio/wav"
              [("Cache-Control", "no-store"), ("X-Content-Type-Options", "nosniff")]), events)

/-- `get_run_recording_audio`: the response, and what the reader did. -/
def getRunRecordingAudio (repository : RunStore) (remote : Option RemoteAudio) (world : AudioWorld)
    (request : AudioRequest) : Except AudioError AudioReply × List ReadEvent :=
  match repository.get request.runId with
  | none => (.error (.http 404 ("unknown run '" ++ request.runId ++ "'") []), [])
  | some stored =>
      match stored.recordings.find? fun recording => recording.stage = request.stage with
      | none =>
          (.error (.http 404 ("unknown recording stage '" ++ request.stage ++ "' for run '" ++
            request.runId ++ "'") []), [])
      | some recording =>
          match localRecordingPath world.check world.decoder recording.uri with
          | .error e => (.error (.raised e), [])
          | .ok path =>
              match path.filter world.existsFile, remote with
              | some path, _ => (.ok (.file path "audio/wav"), [])
              | none, none =>
                  (.error (.http 404 ("recording audio is not available locally for stage '" ++
                    request.stage ++ "'") []), [])
              | none, some remote => getRemoteAudio world remote request recording.uri

/-! ## What a request can reach -/

/-- A request with the token, or with a cookie that was signed and has not expired. -/
def Authorized (remote : RemoteAudio) (request : AudioRequest) (clock : ℚ) : Prop :=
  (∃ scheme : List Char, scheme.map Char.toLower = "bearer".toList ∧
    request.authorization.toList = scheme ++ ' ' :: remote.accessToken.toList) ∨
  ∃ auth ∈ remote.sessionAuth, ∃ cookie ∈ request.cookie, ∃ r expires nonce,
    RemoteAudioSessionAuth.Accepted auth clock cookie r expires nonce

/-- The recording that a request names. -/
def IsRequested (repository : RunStore) (request : AudioRequest) (recording : RecordingArtifact) :
    Prop :=
  ∃ stored, repository.get request.runId = some stored ∧
    stored.recordings.find? (fun recording => recording.stage = request.stage) = some recording

theorem space_notMem_token (remote : RemoteAudio) : ' ' ∉ remote.accessToken.toList := by
  intro h
  have hsolid := remote.token_solid
  rw [List.any_eq_false] at hsolid
  exact hsolid ' ' h (by decide)

theorem token_ne_nil (remote : RemoteAudio) : remote.accessToken.toList ≠ [] := by
  intro h
  have hlength := remote.token_length.1
  rw [← String.length_toList, h] at hlength
  exact absurd hlength (by decide)

theorem space_notMem_bearer {scheme : List Char} (h : scheme.map Char.toLower = "bearer".toList) :
    ' ' ∉ scheme := by
  intro hmem
  have hspace := List.mem_map_of_mem (f := Char.toLower) hmem
  rw [h] at hspace
  exact absurd hspace (by decide)

/-- The words of a header before and after its first space. -/
theorem words_of_header {scheme supplied : List Char} (h : ' ' ∉ scheme) :
    (scheme ++ ' ' :: supplied).takeWhile (· ≠ ' ') = scheme ∧
      ((scheme ++ ' ' :: supplied).dropWhile (· ≠ ' ')).drop 1 = supplied := by
  have hall : ∀ c ∈ scheme, decide (c ≠ ' ') = true := by
    intro c hc
    rw [decide_eq_true_eq]
    rintro rfl
    exact h hc
  rw [List.takeWhile_append_of_pos hall, List.dropWhile_append_of_pos hall,
    List.takeWhile_cons_of_neg (by simp), List.dropWhile_cons_of_neg (by simp), List.append_nil]
  exact ⟨rfl, rfl⟩

/-- The token and nothing else is compared as equal. -/
theorem authorizeRemoteAudio_eq (remote : RemoteAudio) (request : AudioRequest) (clock : ℚ) :
    (Authorized remote request clock →
      authorizeRemoteAudio request.authorization request.cookie remote.accessToken
        remote.sessionAuth clock = .ok ()) ∧
    (¬ Authorized remote request clock →
      authorizeRemoteAudio request.authorization request.cookie remote.accessToken
        remote.sessionAuth clock =
          .error (.http 401 "remote recording authorization required")) := by
  have hsession : (remote.sessionAuth.any fun auth =>
      (auth.remainingSeconds clock request.cookie).isSome) = true ↔
        ∃ auth ∈ remote.sessionAuth, ∃ cookie ∈ request.cookie, ∃ r expires nonce,
          RemoteAudioSessionAuth.Accepted auth clock cookie r expires nonce := by
    rw [Option.any_eq_true]
    constructor
    · rintro ⟨auth, hauth, hsome⟩
      obtain ⟨r, hr⟩ := Option.isSome_iff_exists.mp hsome
      cases hcookie : request.cookie with
      | none =>
          rw [hcookie] at hr
          cases hr
      | some cookie =>
          rw [hcookie] at hr
          exact ⟨auth, hauth, cookie, rfl, r, RemoteAudioSessionAuth.exists_accepted hr⟩
    · rintro ⟨auth, hauth, cookie, hcookie, r, expires, nonce, haccepted⟩
      refine ⟨auth, hauth, ?_⟩
      rw [Option.mem_def.mp hcookie, haccepted.eq_some]
      rfl
  simp only [authorizeRemoteAudio]
  by_cases hbearer : ∃ scheme : List Char, scheme.map Char.toLower = "bearer".toList ∧
      request.authorization.toList = scheme ++ ' ' :: remote.accessToken.toList
  · obtain ⟨scheme, hscheme, htext⟩ := hbearer
    obtain ⟨htake, hdrop⟩ := @words_of_header scheme remote.accessToken.toList
      (space_notMem_bearer hscheme)
    have hauthorized : Authorized remote request clock := Or.inl ⟨scheme, hscheme, htext⟩
    refine ⟨fun _ => ?_, fun h => absurd hauthorized h⟩
    rw [htext, htake, hdrop, if_pos ⟨by simp, hscheme, token_ne_nil remote, remote.token_ascii,
      space_notMem_token remote⟩, compareDigest, remote.token_ascii]
    simp [bind, Except.bind]
  · have hnot : (if ' ' ∈ request.authorization.toList ∧
          (request.authorization.toList.takeWhile (· ≠ ' ')).map Char.toLower = "bearer".toList ∧
          (request.authorization.toList.dropWhile (· ≠ ' ')).drop 1 ≠ [] ∧
          isAscii ((request.authorization.toList.dropWhile (· ≠ ' ')).drop 1) = true ∧
          ' ' ∉ (request.authorization.toList.dropWhile (· ≠ ' ')).drop 1 then
        compareDigest ((request.authorization.toList.dropWhile (· ≠ ' ')).drop 1)
          remote.accessToken.toList
        else .ok false) = .ok false := by
      split_ifs with hform
      · rw [compareDigest, hform.2.2.2.1, remote.token_ascii]
        simp only [Bool.and_self, if_true, Except.ok.injEq, decide_eq_false_iff_not]
        intro hsame
        obtain ⟨scheme, supplied, htext, hscheme⟩ := List.eq_append_cons_of_mem hform.1
        obtain ⟨htake, hdrop⟩ := @words_of_header scheme supplied hscheme
        rw [htext, hdrop] at hsame
        rw [htext, htake] at hform
        exact hbearer ⟨scheme, hform.2.1, hsame ▸ htext⟩
      · rfl
    rw [hnot]
    by_cases hin : (remote.sessionAuth.any fun auth =>
        (auth.remainingSeconds clock request.cookie).isSome) = true
    · refine ⟨fun _ => ?_, fun h => absurd (Or.inr (hsession.mp hin)) h⟩
      simp [bind, Except.bind, hin]
    · refine ⟨fun h => ?_, fun _ => ?_⟩
      · exact absurd (h.resolve_left hbearer) (fun h => hin (hsession.mpr h))
      · simp [bind, Except.bind, hin]

/-- A read that reaches the object store is one of the object of the run and the stage. -/
theorem readWav_cases {check : Url.NetlocCheck} {reader : MinioRecordingReader} {client : ReadClient}
    {clock : ℕ → ℚ} {free : ℕ} {uri runId stage : String}
    {result : Except StorageError (List UInt8)} {events : List ReadEvent}
    (h : reader.readWav check client clock free uri runId stage = (result, events)) :
    (events = [] ∧ ∀ content, result ≠ .ok content) ∨
      (Url.urlparse check uri.toList =
          some ⟨"s3".toList, reader.bucket, '/' :: objectKey reader.keyPrefix runId stage, [], [], []⟩ ∧
        result = (reader.readObject client clock (objectKey reader.keyPrefix runId stage)).1 ∧
        events = .acquire ::
          (reader.readObject client clock (objectKey reader.keyPrefix runId stage)).2 ++
            [.release]) := by
  simp only [MinioRecordingReader.readWav] at h
  split at h
  · cases h
    exact Or.inl ⟨rfl, by simp⟩
  · cases h
    exact Or.inl ⟨rfl, by simp⟩
  · split at h
    · cases h
      exact Or.inl ⟨rfl, by simp⟩
    · rename_i parsed hparsed
      split_ifs at h with hidentity hbusy
      · cases h
        exact Or.inl ⟨rfl, by simp⟩
      · cases h
        exact Or.inl ⟨rfl, by simp⟩
      · cases h
        simp only [ne_eq, not_or, not_not] at hidentity
        obtain ⟨hscheme, hnetloc, hpath, hparams, hquery, hfragment⟩ := hidentity
        refine Or.inr ⟨?_, rfl, rfl⟩
        cases parsed
        simp only at hscheme hnetloc hpath hparams hquery hfragment
        rw [hparsed, hscheme, hnetloc, hpath, hparams, hquery, hfragment]

theorem readObject_eq_ok {reader : MinioRecordingReader} {client : ReadClient} {clock : ℕ → ℚ}
    {objectName : List Char} {content : List UInt8}
    (h : (reader.readObject client clock objectName).1 = .ok content) :
    content.length ≤ reader.maxBytes ∧ HasWavHeader content := by
  simp only [MinioRecordingReader.readObject] at h
  split at h
  · cases h
  · cases h
  · split at h
    · cases h
    · obtain ⟨rfl, hbound⟩ := checkPayload_eq_ok_iff.mp h
      exact hbound

/-- What the response of the endpoint says about the request and the recording. -/
structure Guarded (repository : RunStore) (remote : Option RemoteAudio) (world : AudioWorld)
    (request : AudioRequest) (reply : Except AudioError AudioReply) (events : List ReadEvent) :
    Prop where
  /-- The object store is only called for a request that is authorized, for the object of its run
  and its stage, and for one byte more than the limit. -/
  reached : events ≠ [] → ∃ r ∈ remote, ∃ recording, Authorized r request world.sessionClock ∧
    IsRequested repository request recording ∧
    Url.urlparse world.check recording.uri.toList = some ⟨"s3".toList, r.reader.bucket,
      '/' :: objectKey r.reader.keyPrefix request.runId request.stage, [], [], []⟩ ∧
    ∀ bucket object length, .getObject bucket object length ∈ events →
      bucket = r.reader.bucket ∧
        object = objectKey r.reader.keyPrefix request.runId request.stage ∧
        length = r.reader.maxBytes + 1
  /-- A payload was read from there, within the limit. -/
  payload : ∀ content mediaType headers, reply = .ok (.payload content mediaType headers) →
    events ≠ [] ∧ HasWavHeader content ∧ ∀ r ∈ remote, content.length ≤ r.reader.maxBytes
  /-- A file is the one of the recording. -/
  file : ∀ path mediaType, reply = .ok (.file path mediaType) → events = [] ∧
    world.existsFile path = true ∧ ∃ recording, IsRequested repository request recording ∧
      localRecordingPath world.check world.decoder recording.uri = .ok (some path)
  /-- Without authorization a recording that is not a local file is refused. -/
  refused : ∀ r ∈ remote, ∀ recording path, IsRequested repository request recording →
    localRecordingPath world.check world.decoder recording.uri = .ok path →
    path.filter world.existsFile = none → ¬ Authorized r request world.sessionClock →
      reply = .error (.http 401 "remote recording authorization required"
        [("WWW-Authenticate", "Bearer")]) ∧ events = []
  slots : freeAfter world.free events = world.free

section Endpoint

variable {repository : RunStore} {remote : Option RemoteAudio} {world : AudioWorld}
  {request : AudioRequest} {recording : RecordingArtifact}

/-- The endpoint for a recording that is stored. -/
theorem getRunRecordingAudio_eq (h : IsRequested repository request recording) :
    getRunRecordingAudio repository remote world request =
      match localRecordingPath world.check world.decoder recording.uri with
      | .error e => (.error (.raised e), [])
      | .ok path =>
          match path.filter world.existsFile, remote with
          | some path, _ => (.ok (.file path "audio/wav"), [])
          | none, none =>
              (.error (.http 404 ("recording audio is not available locally for stage '" ++
                request.stage ++ "'") []), [])
          | none, some remote => getRemoteAudio world remote request recording.uri := by
  obtain ⟨stored, hstored, hfind⟩ := h
  simp only [getRunRecordingAudio, hstored, hfind]

/-- Without an answer there is an error, and nothing was reached. -/
theorem guarded_of_error {error : AudioError}
    (h : ∀ r ∈ remote, ∀ recording path, IsRequested repository request recording →
      localRecordingPath world.check world.decoder recording.uri = .ok path →
      path.filter world.existsFile = none → Authorized r request world.sessionClock) :
    Guarded repository remote world request (.error error) [] where
  reached := fun h => absurd rfl h
  payload := fun _ _ _ h => by cases h
  file := fun _ _ h => by cases h
  refused := fun r hr recording path hrequested hpath hnone hnot =>
    absurd (h r hr recording path hrequested hpath hnone) hnot
  slots := rfl

theorem IsRequested.unique {recording' : RecordingArtifact}
    (h : IsRequested repository request recording)
    (h' : IsRequested repository request recording') : recording = recording' := by
  obtain ⟨stored, hstored, hfind⟩ := h
  obtain ⟨stored', hstored', hfind'⟩ := h'
  obtain rfl := Option.some.inj (hstored.symm.trans hstored')
  exact Option.some.inj (hfind.symm.trans hfind')

/-- The remote part. -/
theorem guarded_getRemoteAudio {r : RemoteAudio} (h : IsRequested repository request recording) :
    Guarded repository (some r) world request (getRemoteAudio world r request recording.uri).1
      (getRemoteAudio world r request recording.uri).2 := by
  obtain ⟨hin, hout⟩ := authorizeRemoteAudio_eq r request world.sessionClock
  by_cases hauthorized : Authorized r request world.sessionClock
  · obtain ⟨⟨result, events⟩, hread⟩ : ∃ pair, r.reader.readWav world.check world.client world.clock
      world.free recording.uri request.runId request.stage = pair := ⟨_, rfl⟩
    have hslots := freeAfter_readWav world.check r.reader world.client world.clock world.free
      recording.uri request.runId request.stage
    rw [hread] at hslots
    have hevents : (getRemoteAudio world r request recording.uri).2 = events := by
      simp only [getRemoteAudio, hin hauthorized, hread]
      split_ifs
      · rfl
      · cases result <;> rfl
    refine ⟨?_, ?_, ?_, ?_, ?_⟩
    · rw [hevents]
      intro hne
      rcases readWav_cases hread with ⟨hempty, -⟩ | ⟨hparsed, -, hcalls⟩
      · exact absurd hempty hne
      · refine ⟨r, rfl, recording, hauthorized, h, hparsed, ?_⟩
        intro bucket object length hmem
        obtain ⟨rest, hobject, hrest⟩ := events_readObject r.reader world.client world.clock
          (objectKey r.reader.keyPrefix request.runId request.stage)
        rw [hcalls, hobject] at hmem
        rcases hrest with rfl | rfl <;> simpa using hmem
    · intro content mediaType headers hreply
      rw [hevents]
      simp only [getRemoteAudio, hin hauthorized, hread] at hreply
      split_ifs at hreply
      cases result with
      | error e => cases hreply
      | ok content' =>
          cases hreply
          rcases readWav_cases hread with ⟨-, hno⟩ | ⟨-, hresult, hcalls⟩
          · exact absurd rfl (hno content)
          · obtain ⟨hlength, hheader⟩ := readObject_eq_ok hresult.symm
            refine ⟨by rw [hcalls]; simp, hheader, ?_⟩
            rintro _ ⟨⟩
            exact hlength
    · intro path mediaType hreply
      simp only [getRemoteAudio, hin hauthorized, hread] at hreply
      split_ifs at hreply
      cases result <;> cases hreply
    · rintro _ ⟨⟩ _ _ _ _ _ hnot
      exact absurd hauthorized hnot
    · rw [hevents]
      exact hslots
  · have hreply : getRemoteAudio world r request recording.uri =
        (.error (.http 401 "remote recording authorization required"
          [("WWW-Authenticate", "Bearer")]), []) := by
      simp only [getRemoteAudio, hout hauthorized]
      rfl
    rw [hreply]
    refine ⟨fun h => absurd rfl h, nofun, nofun, ?_, rfl⟩
    rintro _ ⟨⟩ _ _ _ _ _ _
    exact ⟨rfl, rfl⟩

/-- **Access to recordings.** Whatever a request asks for, whatever is stored and however the
clock and the object store behave: the store is called only for a request with the token or with a
signed cookie that has not expired, only for the object of the run and the stage that the request
names, and what is returned is bounded and looks like a WAV file. A file is only served if it is
the one that the stored recording names. No slot of the reader is lost. -/
theorem audio_guarded (repository : RunStore) (remote : Option RemoteAudio) (world : AudioWorld)
    (request : AudioRequest) :
    Guarded repository remote world request
      (getRunRecordingAudio repository remote world request).1
      (getRunRecordingAudio repository remote world request).2 := by
  by_cases hrequested : ∃ recording, IsRequested repository request recording
  · obtain ⟨recording, hrequested⟩ := hrequested
    rw [getRunRecordingAudio_eq hrequested]
    cases hlocal : localRecordingPath world.check world.decoder recording.uri with
    | error e =>
        apply guarded_of_error
        intro r _ recording' path hrequested' hpath
        rw [hrequested.unique hrequested', hpath] at hlocal
        cases hlocal
    | ok path =>
        cases hfile : path.filter world.existsFile with
        | some file =>
            simp only [hfile]
            obtain ⟨hmem, hexists⟩ := Option.filter_eq_some_iff.mp hfile
            refine ⟨fun h => absurd rfl h, nofun, ?_, ?_, rfl⟩
            · intro _ _ hreply
              cases hreply
              refine ⟨rfl, hexists, recording, hrequested, ?_⟩
              rw [hlocal, hmem]
            · intro r _ recording' path' hrequested' hpath hnone
              rw [← hrequested.unique hrequested', hlocal] at hpath
              rw [← Except.ok.inj hpath, hfile] at hnone
              cases hnone
        | none =>
            cases remote with
            | none =>
                simp only [hfile]
                exact guarded_of_error fun r hr => by cases hr
            | some r =>
                simp only [hfile]
                exact guarded_getRemoteAudio hrequested
  · have hnone : ∃ error, getRunRecordingAudio repository remote world request =
        (.error error, []) := by
      simp only [getRunRecordingAudio]
      split
      · exact ⟨_, rfl⟩
      · rename_i stored hstored
        split
        · exact ⟨_, rfl⟩
        · rename_i recording hfind
          exact absurd ⟨recording, stored, hstored, hfind⟩ hrequested
    obtain ⟨error, herror⟩ := hnone
    rw [herror]
    exact guarded_of_error fun _ _ recording _ h => absurd ⟨recording, h⟩ hrequested

/-! ## What is served -/

/-- A file that the readers find is served, with or without an object store. -/
theorem served_file {path : PurePath} (h : IsRequested repository request recording)
    (hlocal : localRecordingPath world.check world.decoder recording.uri = .ok (some path))
    (hexists : world.existsFile path = true) :
    getRunRecordingAudio repository remote world request = (.ok (.file path "audio/wav"), []) := by
  have hfile : (some path).filter world.existsFile = some path := by
    rw [Option.filter_some, if_pos hexists]
  rw [getRunRecordingAudio_eq h, hlocal]
  simp only [hfile]

/-- The file of the local sink. -/
theorem served_local {sink : LocalRecordingSink} (hroot : sink.root.WellFormed)
    {runId stage : String} {audioFormat : Json} {durationMs : ℚ} {path : PurePath} {file : SilentWav}
    (hwrite : sink.writeStageWav runId stage audioFormat durationMs = .ok (path, file, recording))
    (h : IsRequested repository request recording) (hexists : world.existsFile path = true) :
    getRunRecordingAudio repository remote world request = (.ok (.file path "audio/wav"), []) := by
  have habsolute : sink.root.root ≠ [] := by
    rw [sink.root_absolute]
    decide
  simp only [LocalRecordingSink.writeStageWav] at hwrite
  split_ifs at hwrite
  obtain ⟨_, -, hwrite⟩ := bind_eq_ok.mp hwrite
  cases hwrite
  have hpath : (sink.stagePath runId stage).WellFormed := (hroot.join _).join _
  refine served_file h ?_ hexists
  exact (readers_asUri world.check world.decoder hpath
    (PurePath.root_join (PurePath.root_join habsolute _) _)).1

/-- The first recording of a stage is the one that was put last. -/
theorem find?_putRecording (run : StoredRun) (recording : RecordingArtifact) :
    (run.putRecording recording).recordings.find? (fun r => r.stage = recording.stage) =
      some recording := by
  obtain ⟨recordings, hrecordings⟩ : ∃ rs, run.recordings = rs := ⟨_, rfl⟩
  have hrun : run = { run with recordings := recordings } := by rw [← hrecordings]
  rw [hrun]
  clear hrun hrecordings
  induction recordings with
  | nil => simp [StoredRun.putRecording]
  | cons first rest ih =>
      rw [recordings_putRecording_cons]
      by_cases hfirst : first.stage = recording.stage
      · simp [hfirst]
      · simp [hfirst, ih]

/-- The recording of a chunk names its file. -/
theorem uri_writeObservedAudio {state state' : RunApiState} {run run' : StoredRun}
    {chunk : AudioChunkObservationRequest}
    (h : writeObservedAudio state run chunk chunk.pcm = .ok (state', run')) :
    ∃ recording : RecordingArtifact, recording.stage = chunk.stage ∧
      recording.uri = "file://" ++ quote (wavPath state.artifactRoot run.runId chunk.stage) ['/'] ∧
      (state'.wavFiles (wavPath state.artifactRoot run.runId chunk.stage)).isSome ∧
      run' = run.putRecording recording := by
  simp only [writeObservedAudio] at h
  split at h
  · cases h
  · obtain ⟨rfl, rfl⟩ := Prod.mk.inj (Except.ok.inj h)
    refine ⟨_, rfl, rfl, ?_, rfl⟩
    simp only [wavPath, Function.update_self, Option.isSome_some]

/-- The file of the observed audio. -/
theorem served_observed {state state' : RunApiState} {run run' stored : StoredRun}
    {chunk : AudioChunkObservationRequest} (hroot : state.artifactRoot.toList.head? = some '/')
    (hwrite : writeObservedAudio state run chunk chunk.pcm = .ok (state', run'))
    (hstored : repository.get request.runId = some stored)
    (hrecordings : stored.recordings = run'.recordings) (hstage : request.stage = chunk.stage)
    (hexists : world.existsFile
      (PurePath.parse (wavPath state.artifactRoot run.runId chunk.stage).toList) = true) :
    getRunRecordingAudio repository remote world request =
        (.ok (.file (PurePath.parse (wavPath state.artifactRoot run.runId chunk.stage).toList)
          "audio/wav"), []) ∧
      (state'.wavFiles (wavPath state.artifactRoot run.runId chunk.stage)).isSome := by
  have hhead : (wavPath state.artifactRoot run.runId chunk.stage).toList.head? = some '/' := by
    simp only [wavPath, String.toList_append, List.append_assoc, List.head?_append, hroot]
    rfl
  obtain ⟨recording, hsame, huri, hfile, hrun⟩ := uri_writeObservedAudio hwrite
  refine ⟨?_, hfile⟩
  have hrequested : IsRequested repository request recording := by
    refine ⟨stored, hstored, ?_⟩
    rw [hrecordings, hrun, hstage, ← hsame]
    exact find?_putRecording run recording
  refine served_file hrequested ?_ hexists
  rw [huri]
  exact (readers_fileUri world.check world.decoder hhead).1

/-- The object of the sink of the object store. -/
theorem served_remote {bucket keyPrefix : String} {sink : MinioRecordingSink}
    (hsink : MinioRecordingSink.make bucket keyPrefix = .ok sink) {r : RemoteAudio}
    {maxBytes maxConcurrentReads : ℤ} {timeoutSeconds : ℚ}
    (hreader : MinioRecordingReader.make bucket keyPrefix maxBytes timeoutSeconds
      maxConcurrentReads = .ok r.reader)
    {audioFormat : Json} {durationMs : ℚ} {put : PutObject}
    (hwrite : sink.writeStageWav request.runId request.stage audioFormat durationMs =
      .ok (put, recording))
    (h : IsRequested repository request recording)
    (hauthorized : Authorized r request world.sessionClock) (hfree : 0 < world.free)
    (hlate : world.late = false) {content served : List UInt8} {reply : List UInt8 → ℕ → Reply}
    (hopen : world.client put.bucketName put.objectName (r.reader.maxBytes + 1) = .response reply)
    (hout : HandsOut served reply) (hserved : served <+: content)
    (hlong : content.take (r.reader.maxBytes + 1) <+: served)
    (hclock : ∀ n, world.clock (n + 1) < world.clock 0 + r.reader.timeoutSeconds) :
    (getRunRecordingAudio repository (some r) world request).1 =
      if content.length > r.reader.maxBytes then
        .error (.http 413 "remote recording exceeds the configured byte limit" [])
      else if HasWavHeader content then
        .ok (.payload content "audio/wav"
          [("Cache-Control", "no-store"), ("X-Content-Type-Options", "nosniff")])
      else .error (.http 502 "remote recording is not a valid WAV object" []) := by
  obtain ⟨hbucket, hnormal⟩ := MinioRecordingSink.of_make hsink
  obtain ⟨hbucket', hnormal'⟩ := MinioRecordingReader.of_make hreader
  obtain ⟨hrun, hstage, hputBucket, hobject, -⟩ := writeStageWav_eq_ok hwrite
  have hplace : r.reader.bucket = sink.bucket := hbucket'.trans hbucket.symm
  have hhead : r.reader.keyPrefix = sink.keyPrefix := Except.ok.inj (hnormal'.symm.trans hnormal)
  have hlocal : localRecordingPath world.check world.decoder recording.uri = .ok none := by
    rw [localRecordingPath, urlparse_uri world.check hwrite]
    rfl
  have hcontent : (r.reader.readWav world.check world.client world.clock world.free recording.uri
      request.runId request.stage).1 = checkPayload r.reader.maxBytes content := by
    rw [readWav_uri world.check hwrite hplace world.client world.clock world.free hrun hstage, hhead,
      if_neg (not_not.mpr hobject), if_neg (by omega)]
    refine readObject_handsOut ?_ hout hserved hlong hclock
    rw [hplace, ← hputBucket]
    exact hopen
  rw [getRunRecordingAudio_eq h, hlocal]
  simp only [Option.filter_none, getRemoteAudio, (authorizeRemoteAudio_eq r request
    world.sessionClock).1 hauthorized, hlate, hcontent, checkPayload, Bool.false_eq_true, if_false]
  split_ifs <;> rfl

/-- **Recordings are served.** The file that the local sink wrote is served for every run and
stage while it is there, and so is the file of the observed audio of a stage. For an authorized
request the object that the other sink put is served if it fits and has the header of a WAV file, in
whatever pieces it arrives, when a slot of the reader is free and every read begins in time. -/
theorem audio_served (repository : RunStore) (world : AudioWorld) (request : AudioRequest) :
    (∀ (remote : Option RemoteAudio) (sink : LocalRecordingSink) (runId stage : String)
        (audioFormat : Json) (durationMs : ℚ) (path : PurePath) (file : SilentWav)
        (recording : RecordingArtifact), sink.root.WellFormed →
      sink.writeStageWav runId stage audioFormat durationMs = .ok (path, file, recording) →
      IsRequested repository request recording → world.existsFile path = true →
        getRunRecordingAudio repository remote world request =
          (.ok (.file path "audio/wav"), [])) ∧
    (∀ (remote : Option RemoteAudio) (state state' : RunApiState) (run run' stored : StoredRun)
        (chunk : AudioChunkObservationRequest), state.artifactRoot.toList.head? = some '/' →
      writeObservedAudio state run chunk chunk.pcm = .ok (state', run') →
      repository.get request.runId = some stored → stored.recordings = run'.recordings →
      request.stage = chunk.stage →
      world.existsFile
        (PurePath.parse (wavPath state.artifactRoot run.runId chunk.stage).toList) = true →
        getRunRecordingAudio repository remote world request =
            (.ok (.file (PurePath.parse (wavPath state.artifactRoot run.runId chunk.stage).toList)
              "audio/wav"), []) ∧
          (state'.wavFiles (wavPath state.artifactRoot run.runId chunk.stage)).isSome) ∧
    ∀ (bucket keyPrefix : String) (sink : MinioRecordingSink) (r : RemoteAudio)
        (maxBytes maxConcurrentReads : ℤ) (timeoutSeconds : ℚ) (audioFormat : Json)
        (durationMs : ℚ) (put : PutObject) (recording : RecordingArtifact)
        (content served : List UInt8) (reply : List UInt8 → ℕ → Reply),
      MinioRecordingSink.make bucket keyPrefix = .ok sink →
      MinioRecordingReader.make bucket keyPrefix maxBytes timeoutSeconds maxConcurrentReads =
        .ok r.reader →
      sink.writeStageWav request.runId request.stage audioFormat durationMs =
        .ok (put, recording) →
      IsRequested repository request recording → Authorized r request world.sessionClock →
      0 < world.free → world.late = false →
      world.client put.bucketName put.objectName (r.reader.maxBytes + 1) = .response reply →
      HandsOut served reply → served <+: content →
      content.take (r.reader.maxBytes + 1) <+: served →
      (∀ n, world.clock (n + 1) < world.clock 0 + r.reader.timeoutSeconds) →
        (getRunRecordingAudio repository (some r) world request).1 =
          if content.length > r.reader.maxBytes then
            .error (.http 413 "remote recording exceeds the configured byte limit" [])
          else if HasWavHeader content then
            .ok (.payload content "audio/wav"
              [("Cache-Control", "no-store"), ("X-Content-Type-Options", "nosniff")])
          else .error (.http 502 "remote recording is not a valid WAV object" []) := by
  refine ⟨?_, ?_, ?_⟩
  · intro remote sink runId stage audioFormat durationMs path file recording hroot hwrite h hexists
    exact served_local hroot hwrite h hexists
  · intro remote state state' run run' stored chunk hroot hwrite hstored hrecordings hstage hexists
    exact served_observed hroot hwrite hstored hrecordings hstage hexists
  · intro bucket keyPrefix sink r maxBytes maxConcurrentReads timeoutSeconds audioFormat durationMs
      put recording content served reply hsink hreader hwrite h hauthorized hfree hlate hopen hout
      hserved hlong hclock
    exact served_remote hsink hreader hwrite h hauthorized hfree hlate hopen hout hserved hlong
      hclock

end Endpoint

/-- A run with one recording. -/
def servedRun (recording : RecordingArtifact) : StoredRun :=
  { createRunningRun (Uuid.ofNat 1).str "hash" none "echo" "loopback" (.utc 0) .null {} [] with
    recordings := [recording] }

theorem isRequested_servedRun (recording : RecordingArtifact) : ∃ repository, ∀ authorization cookie,
    IsRequested repository ⟨(Uuid.ofNat 1).str, recording.stage, authorization, cookie⟩ recording := by
  obtain ⟨store, hstore⟩ :
      ∃ store, RunStore.empty.saveInSession (servedRun recording) (Uuid.ofNat 1) = .ok store := by
    refine ⟨_, dif_pos ?_⟩
    simp [servedRun, createRunningRun]
  have hfind := RunStore.find?_saveInSession_self hstore
  refine ⟨store, fun authorization cookie => ?_⟩
  refine ⟨_, (RunStore.get_str store (Uuid.ofNat 1)).trans hfind, ?_⟩
  simp [StoredRun.asUtc, servedRun]

/-- A decoder that has one mark for all that is not well-formed. -/
def markingDecoder : Utf8Decoder where
  decode bytes := ((decodeUtf8 bytes).map String.toList).getD [Char.ofNat 65533]
  decode_wellFormed := by
    intro bytes text h
    rw [h]
    rfl

def plainCheck : Url.NetlocCheck := ⟨fun _ => true, fun _ _ => rfl⟩

theorem file_uri_round_trip_space :
    localRecordingPath plainCheck markingDecoder (asUri ⟨['/'], ["a b".toList]⟩) =
      .ok (some ⟨['/'], ["a b".toList]⟩) := by
  refine (@file_uri_round_trip plainCheck markingDecoder ⟨['/'], ["a b".toList]⟩ ⟨['/'], []⟩ ?_ ?_ ?_
    ?_).1.1
  · exact ⟨by decide, by decide⟩
  · decide
  · exact ⟨by decide, by decide⟩
  · decide

/-- A service with a reader of the object store and a token. -/
def remoteAudio (reader : MinioRecordingReader) : RemoteAudio where
  reader := reader
  accessToken := "0123456789abcdef0123456789abcdef"
  sessionAuth := none
  token_length := by decide
  token_ascii := by decide
  token_solid := by decide

theorem audio_served_shortWav :
    ∃ (repository : RunStore) (reader : MinioRecordingReader) (world : AudioWorld)
        (request : AudioRequest),
      (getRunRecordingAudio repository (some (remoteAudio reader)) world request).1 =
        .ok (.payload shortWav "audio/wav"
          [("Cache-Control", "no-store"), ("X-Content-Type-Options", "nosniff")]) := by
  obtain ⟨sink, hsink⟩ : ∃ sink : MinioRecordingSink,
      MinioRecordingSink.make "voxbench" "recordings/eu" = .ok sink := ⟨_, rfl⟩
  obtain ⟨put, artifact, hwrite⟩ := @exists_writeStageWav_mono sink (Uuid.ofNat 1).str "stt" rfl rfl
  obtain ⟨reader, hreader, hbytes, htimeout⟩ : ∃ reader : MinioRecordingReader,
      MinioRecordingReader.make "voxbench" "recordings/eu" 64 5 2 = .ok reader ∧
      reader.maxBytes = 64 ∧ reader.timeoutSeconds = 5 := ⟨_, rfl, rfl, rfl⟩
  have hstage : artifact.stage = "stt" := by
    simp only [MinioRecordingSink.writeStageWav] at hwrite
    obtain ⟨_, -, hwrite⟩ := bind_eq_ok.mp hwrite
    obtain ⟨_, -, hwrite⟩ := bind_eq_ok.mp hwrite
    obtain ⟨_, -, hwrite⟩ := bind_eq_ok.mp hwrite
    cases hwrite
    rfl
  obtain ⟨repository, hrequested⟩ := isRequested_servedRun artifact
  rw [hstage] at hrequested
  have hheader : "Bearer 0123456789abcdef0123456789abcdef".toList =
      "Bearer".toList ++ ' ' :: (remoteAudio reader).accessToken.toList := by
    change _ = _ ++ ' ' :: "0123456789abcdef0123456789abcdef".toList
    decide
  let world : AudioWorld :=
    { check := plainCheck
      decoder := markingDecoder
      existsFile := fun _ => false
      client := fun _ _ _ => .response (inPieces (fun _ => 4) shortWav)
      sessionClock := 0
      clock := fun _ => 0
      free := 1
      late := false }
  let request : AudioRequest :=
    ⟨(Uuid.ofNat 1).str, "stt", "Bearer 0123456789abcdef0123456789abcdef", none⟩
  obtain ⟨-, -, hremote⟩ := audio_served repository world request
  refine ⟨repository, reader, world, request, ?_⟩
  have hserved := hremote "voxbench" "recordings/eu" sink (remoteAudio reader) 64 2 5 monoFormat 20 put
    artifact shortWav shortWav (inPieces (fun _ => 4) shortWav) hsink hreader hwrite
    (hrequested _ none) (Or.inl ⟨"Bearer".toList, by decide, hheader⟩) one_pos rfl rfl
    (handsOut_inPieces _ _) List.prefix_rfl (List.take_prefix _ _)
    (fun _ => by
      change (0 : ℚ) < 0 + reader.timeoutSeconds
      rw [htimeout]
      norm_num)
  have hfits : ¬ shortWav.length > (remoteAudio reader).reader.maxBytes := by
    change ¬ shortWav.length > reader.maxBytes
    rw [hbytes]
    decide
  rwa [if_neg hfits, if_pos (by decide)] at hserved

end VoxBench.ControlPlane
