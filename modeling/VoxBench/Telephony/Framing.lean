import VoxBench.Lib.Stream
import Mathlib.Tactic.Ring

/-!
# AudioSocket frames

A frame is a type byte, the length of the payload in two bytes, and the payload.
`read_frame` waits for the header and then for the payload; the end of the stream is clean
before a header and an error everywhere else.

## Main definitions

* `readFrame`, `writeFrame` — one frame.
* `readFrames` — `read_frame` until it returns no frame.

## Main results

* `framing_round_trip` — reading inverts writing, for whole streams and for cut ones.
-/

namespace VoxBench.Telephony

open VoxBench.Lib

structure AudioSocketFrame where
  frameType : ℕ
  payload : List UInt8
  deriving DecidableEq, Repr

inductive FrameError where
  | valueError (reason : String)
  | connectionError (reason : String)
  deriving DecidableEq, Repr

def truncatedHeader : FrameError := .connectionError "truncated AudioSocket header"
def truncatedPayload : FrameError := .connectionError "truncated AudioSocket payload"

/-- `int.from_bytes(…, byteorder="big")` of two bytes. -/
def fromBytes (high low : UInt8) : ℕ := high.toNat * 256 + low.toNat

/-- `n.to_bytes(2, "big")`, on a 16-bit number. -/
def toBytes (n : ℕ) : List UInt8 := [UInt8.ofNat (n / 256), UInt8.ofNat (n % 256)]

/-- `read_frame`: the frame, or `none` on a clean end. -/
def readFrame (reader : Stream UInt8) :
    Except FrameError (Option AudioSocketFrame) × Stream UInt8 :=
  match reader.readexactly 3 with
  | (.error [], reader) => (.ok none, reader)
  | (.error (_ :: _), reader) => (.error truncatedHeader, reader)
  | (.ok header, reader) =>
      match header with
      | [frameType, high, low] =>
          match reader.readexactly (fromBytes high low) with
          | (.error _, reader) => (.error truncatedPayload, reader)
          | (.ok payload, reader) => (.ok (some ⟨frameType.toNat, payload⟩), reader)
      | _ => (.error truncatedHeader, reader)

/-- `write_frame`, with everything written to the stream so far. -/
def writeFrame (written : List UInt8) (frameType : ℤ) (payload : List UInt8) :
    Except FrameError Unit × List UInt8 :=
  if ¬ (0 ≤ frameType ∧ frameType ≤ 0xFF) then
    (.error (.valueError "AudioSocket frame type must fit in one byte"), written)
  else if payload.length > 0xFFFF then
    (.error (.valueError "AudioSocket payload exceeds 16-bit frame length"), written)
  else (.ok (), written ++ UInt8.ofNat frameType.toNat :: toBytes payload.length ++ payload)

/-- A frame that can be written. -/
def AudioSocketFrame.Fits (f : AudioSocketFrame) : Prop :=
  f.frameType ≤ 0xFF ∧ f.payload.length ≤ 0xFFFF

instance (f : AudioSocketFrame) : Decidable f.Fits :=
  inferInstanceAs (Decidable (f.frameType ≤ 0xFF ∧ f.payload.length ≤ 0xFFFF))

/-- The stream after frames are written to it, one by one. -/
def writeFrames (frames : List AudioSocketFrame) : List UInt8 :=
  frames.foldl (fun written f => (writeFrame written f.frameType f.payload).2) []

/-! ## One frame -/

/-- The bytes of a frame. -/
def AudioSocketFrame.bytes (f : AudioSocketFrame) : List UInt8 :=
  UInt8.ofNat f.frameType :: toBytes f.payload.length ++ f.payload

section One

variable {f : AudioSocketFrame} {reader reader' : Stream UInt8}

theorem fromBytes_toBytes {n : ℕ} (h : n ≤ 0xFFFF) :
    fromBytes (UInt8.ofNat (n / 256)) (UInt8.ofNat (n % 256)) = n := by
  rw [fromBytes, UInt8.toNat_ofNat', UInt8.toNat_ofNat']
  omega

theorem toBytes_fromBytes (high low : UInt8) : toBytes (fromBytes high low) = [high, low] := by
  have hhigh := high.toNat_lt
  have hlow := low.toNat_lt
  have hdiv : fromBytes high low / 256 = high.toNat := by
    rw [fromBytes]
    omega
  have hmod : fromBytes high low % 256 = low.toNat := by
    rw [fromBytes]
    omega
  rw [toBytes, hdiv, hmod, UInt8.ofNat_toNat, UInt8.ofNat_toNat]

theorem fromBytes_le (high low : UInt8) : fromBytes high low ≤ 0xFFFF := by
  have hhigh := high.toNat_lt
  have hlow := low.toNat_lt
  rw [fromBytes]
  omega

theorem writeFrame_of_fits (h : f.Fits) (written : List UInt8) :
    writeFrame written f.frameType f.payload = (.ok (), written ++ f.bytes) := by
  obtain ⟨htype, hlength⟩ := h
  have hrange : ¬ ¬ (0 ≤ (f.frameType : ℤ) ∧ (f.frameType : ℤ) ≤ 0xFF) := by omega
  rw [writeFrame, if_neg hrange, if_neg (by omega), Int.toNat_natCast]
  simp [AudioSocketFrame.bytes]

/-- What is read depends on the bytes that are left. -/
theorem readFrame_cases (reader : Stream UInt8) :
    (reader.rest = [] ∧ (readFrame reader).1 = .ok none) ∨
    (reader.rest ≠ [] ∧ reader.rest.length < 3 ∧ (readFrame reader).1 = .error truncatedHeader) ∨
    ∃ frameType high low body, reader.rest = frameType :: high :: low :: body ∧
      ((body.length < fromBytes high low ∧ (readFrame reader).1 = .error truncatedPayload) ∨
      (fromBytes high low ≤ body.length ∧
        (readFrame reader).1 = .ok (some ⟨frameType.toNat, body.take (fromBytes high low)⟩) ∧
        (readFrame reader).2.rest = body.drop (fromBytes high low))) := by
  match hrest : reader.rest with
  | [] =>
      have hread := Stream.readexactly_of_lt (s := reader) (n := 3) (by simp [hrest])
      rw [hrest] at hread
      exact .inl ⟨rfl, by simp [readFrame, hread]⟩
  | [a] =>
      have hread := Stream.readexactly_of_lt (s := reader) (n := 3) (by simp [hrest])
      rw [hrest] at hread
      exact .inr (.inl ⟨by simp, by simp, by simp [readFrame, hread]⟩)
  | [a, b] =>
      have hread := Stream.readexactly_of_lt (s := reader) (n := 3) (by simp [hrest])
      rw [hrest] at hread
      exact .inr (.inl ⟨by simp, by simp, by simp [readFrame, hread]⟩)
  | frameType :: high :: low :: body =>
      refine .inr (.inr ⟨frameType, high, low, body, rfl, ?_⟩)
      obtain ⟨reader₁, hread, hrest₁⟩ :=
        Stream.readexactly_of_le (s := reader) (n := 3) (by simp [hrest])
      rw [hrest] at hread hrest₁
      have hbody : reader₁.rest = body := hrest₁
      by_cases hle : fromBytes high low ≤ body.length
      · obtain ⟨reader₂, hpayload, hrest₂⟩ :=
          Stream.readexactly_of_le (s := reader₁) (n := fromBytes high low) (by rwa [hbody])
        rw [hbody] at hpayload hrest₂
        refine .inr ⟨hle, ?_, ?_⟩
        · simp [readFrame, hread, hpayload]
        · simpa [readFrame, hread, hpayload] using hrest₂
      · have hpayload :=
          Stream.readexactly_of_lt (s := reader₁) (n := fromBytes high low) (by rw [hbody]; omega)
        exact .inl ⟨by omega, by simp [readFrame, hread, hpayload]⟩

/-- A frame that is read has its bytes in front of what is left. -/
theorem rest_of_readFrame (h : readFrame reader = (.ok (some f), reader')) :
    reader.rest = f.bytes ++ reader'.rest ∧ f.Fits := by
  have hfirst : (readFrame reader).1 = .ok (some f) := by rw [h]
  have hsecond : (readFrame reader).2 = reader' := by rw [h]
  obtain ⟨-, hnone⟩ | ⟨-, -, herror⟩ | ⟨frameType, high, low, body, hrest, ⟨-, herror⟩ |
    ⟨hle, hframe, hleft⟩⟩ := readFrame_cases reader
  · rw [hnone] at hfirst
    cases hfirst
  · rw [herror] at hfirst
    cases hfirst
  · rw [herror] at hfirst
    cases hfirst
  · rw [hframe] at hfirst
    cases hfirst
    have hlength : (body.take (fromBytes high low)).length = fromBytes high low := by
      rw [List.length_take]
      omega
    have htype := frameType.toNat_lt
    refine ⟨?_, by dsimp only; omega, by dsimp only; rw [hlength]; exact fromBytes_le high low⟩
    rw [hrest, ← hsecond, hleft]
    simp only [AudioSocketFrame.bytes, hlength, toBytes_fromBytes, UInt8.ofNat_toNat]
    simp

theorem length_bytes (f : AudioSocketFrame) : f.bytes.length = 3 + f.payload.length := by
  simp [AudioSocketFrame.bytes, toBytes]
  omega

/-- Reading from what was written of a frame. -/
theorem readFrame_of_prefix (h : f.Fits) {tail : List UInt8}
    (hrest : reader.rest <+: f.bytes ++ tail) :
    (reader.rest = [] ∧ (readFrame reader).1 = .ok none) ∨
    (reader.rest ≠ [] ∧ reader.rest.length < f.bytes.length ∧
      ∃ reason, (readFrame reader).1 = .error (.connectionError reason)) ∨
    ∃ tail', reader.rest = f.bytes ++ tail' ∧ (readFrame reader).1 = .ok (some f) ∧
      (readFrame reader).2.rest = tail' := by
  have hlength := length_bytes f
  obtain ⟨hnil, hnone⟩ | ⟨hne, hshort, herror⟩ | ⟨frameType, high, low, body, hcons, hbody⟩ :=
    readFrame_cases reader
  · exact .inl ⟨hnil, hnone⟩
  · exact .inr (.inl ⟨hne, by omega, _, herror⟩)
  · -- the header is the header of the frame
    obtain ⟨more, hmore⟩ := hrest
    rw [hcons] at hmore
    simp only [AudioSocketFrame.bytes, toBytes, List.cons_append, List.nil_append,
      List.cons.injEq] at hmore
    obtain ⟨rfl, rfl, rfl, hmore⟩ := hmore
    have htype : (UInt8.ofNat f.frameType).toNat = f.frameType := by
      have := h.1
      rw [UInt8.toNat_ofNat']
      omega
    rw [fromBytes_toBytes h.2, htype] at hbody
    obtain ⟨hlt, herror⟩ | ⟨hle, hframe, hleft⟩ := hbody
    · refine .inr (.inl ⟨by simp [hcons], ?_, _, herror⟩)
      rw [hcons, hlength]
      simp only [List.length_cons]
      omega
    · have htake : body.take f.payload.length = f.payload := by
        have := congrArg (List.take f.payload.length) hmore
        rwa [List.take_append_of_le_length hle, List.take_left] at this
      refine .inr (.inr ⟨body.drop f.payload.length, ?_, ?_, hleft⟩)
      · have hsplit := List.take_append_drop f.payload.length body
        rw [htake] at hsplit
        rw [hcons]
        nth_rewrite 1 [← hsplit]
        simp [AudioSocketFrame.bytes, toBytes]
      · rw [hframe, htake]

end One

/-! ## Streams of frames -/

/-- `read_frame` until it returns no frame: the frames, and whether the last call raised. -/
def readFrames (reader : Stream UInt8) : List AudioSocketFrame × Except FrameError Unit :=
  match _hread : readFrame reader with
  | (.error e, _) => ([], .error e)
  | (.ok none, _) => ([], .ok ())
  | (.ok (some f), reader') => (f :: (readFrames reader').1, (readFrames reader').2)
termination_by reader.rest.length
decreasing_by
  all_goals
    have hrest := (rest_of_readFrame _hread).1
    have hbytes := length_bytes f
    rw [hrest, List.length_append]
    omega

section Many

variable {f : AudioSocketFrame} {frames : List AudioSocketFrame} {reader : Stream UInt8}

theorem readFrames_of_none (h : (readFrame reader).1 = .ok none) :
    readFrames reader = ([], .ok ()) := by
  rw [readFrames]
  split
  · rename_i heq
    rw [heq] at h
    cases h
  · rfl
  · rename_i heq
    rw [heq] at h
    cases h

theorem readFrames_of_error {e : FrameError} (h : (readFrame reader).1 = .error e) :
    readFrames reader = ([], .error e) := by
  rw [readFrames]
  split
  all_goals
    rename_i heq
    rw [heq] at h
    cases h
  rfl

theorem readFrames_of_some (h : (readFrame reader).1 = .ok (some f)) :
    readFrames reader =
      (f :: (readFrames (readFrame reader).2).1, (readFrames (readFrame reader).2).2) := by
  rw [readFrames]
  split
  all_goals
    rename_i heq
    rw [heq] at h
    cases h
  rw [heq]

/-- What is written of frames is their bytes. -/
theorem writeFrames_eq (h : ∀ f ∈ frames, f.Fits) :
    writeFrames frames = frames.flatMap AudioSocketFrame.bytes := by
  have hfold : ∀ written, frames.foldl
      (fun written f => (writeFrame written f.frameType f.payload).2) written =
        written ++ frames.flatMap AudioSocketFrame.bytes := by
    induction frames with
    | nil => simp
    | cons f frames ih =>
        intro written
        have htail := ih fun f hf => h f (List.mem_cons_of_mem _ hf)
        rw [List.foldl_cons, writeFrame_of_fits (h f List.mem_cons_self), htail,
          List.flatMap_cons, List.append_assoc]
  exact hfold []

/-- Reading from a beginning of the bytes of some frames: the frames that are there as a
whole, and an error unless nothing of another one is there. -/
theorem readFrames_of_prefix (h : ∀ f ∈ frames, f.Fits)
    (hrest : reader.rest <+: frames.flatMap AudioSocketFrame.bytes) :
    ∃ whole left, frames = whole ++ left ∧ (readFrames reader).1 = whole ∧
      ((reader.rest = whole.flatMap AudioSocketFrame.bytes ∧ (readFrames reader).2 = .ok ()) ∨
      ∃ f left' cut reason, left = f :: left' ∧ cut ≠ [] ∧ cut.length < f.bytes.length ∧
        reader.rest = whole.flatMap AudioSocketFrame.bytes ++ cut ∧
        (readFrames reader).2 = .error (.connectionError reason)) := by
  induction frames generalizing reader with
  | nil =>
      have hnil : reader.rest = [] := List.prefix_nil.mp hrest
      have hnone : (readFrame reader).1 = .ok none := by
        obtain ⟨-, hnone⟩ | ⟨hne, -⟩ | ⟨frameType, high, low, body, hcons, -⟩ :=
          readFrame_cases reader
        · exact hnone
        · exact absurd hnil hne
        · rw [hcons] at hnil
          cases hnil
      exact ⟨[], [], rfl, by rw [readFrames_of_none hnone], .inl ⟨hnil,
        by rw [readFrames_of_none hnone]⟩⟩
  | cons f frames ih =>
      rw [List.flatMap_cons] at hrest
      obtain ⟨hnil, hnone⟩ | ⟨hne, hshort, reason, herror⟩ | ⟨tail, hsplit, hframe, hleft⟩ :=
        readFrame_of_prefix (h f List.mem_cons_self) hrest
      · exact ⟨[], f :: frames, rfl, by rw [readFrames_of_none hnone], .inl ⟨hnil,
          by rw [readFrames_of_none hnone]⟩⟩
      · exact ⟨[], f :: frames, rfl, by rw [readFrames_of_error herror], .inr ⟨f, frames,
          reader.rest, reason, rfl, hne, hshort, rfl, by rw [readFrames_of_error herror]⟩⟩
      · rw [hsplit, List.prefix_append_right_inj, ← hleft] at hrest
        obtain ⟨whole, left, hframes, hread, hend⟩ :=
          ih (fun f hf => h f (List.mem_cons_of_mem _ hf)) hrest
        rw [hleft] at hend
        refine ⟨f :: whole, left, by rw [hframes]; rfl, ?_, ?_⟩
        · rw [readFrames_of_some hframe, hread]
        · rw [readFrames_of_some hframe, hsplit, List.flatMap_cons]
          rcases hend with ⟨htail, hok⟩ | ⟨f', left', cut, reason, hl, hcut, hlt, htail, herror⟩
          · exact .inl ⟨by rw [htail], hok⟩
          · exact .inr ⟨f', left', cut, reason, hl, hcut, hlt, by rw [htail, List.append_assoc],
              herror⟩

/-- What is read without an error is what was written. -/
theorem rest_of_readFrames (h : (readFrames reader).2 = .ok ()) :
    reader.rest = (readFrames reader).1.flatMap AudioSocketFrame.bytes ∧
      ∀ f ∈ (readFrames reader).1, f.Fits := by
  induction hlength : reader.rest.length using Nat.strongRecOn generalizing reader with
  | ind length ih =>
      obtain ⟨hnil, hnone⟩ | ⟨-, -, herror⟩ | ⟨frameType, high, low, body, hcons, ⟨-, herror⟩ |
        ⟨hle, hframe, hleft⟩⟩ := readFrame_cases reader
      · rw [readFrames_of_none hnone]
        exact ⟨hnil, by simp⟩
      · rw [readFrames_of_error herror] at h
        cases h
      · rw [readFrames_of_error herror] at h
        cases h
      · rw [readFrames_of_some hframe] at h ⊢
        obtain ⟨hrest, hfits⟩ :=
          rest_of_readFrame (by rw [← hframe])
        have hshorter : (readFrame reader).2.rest.length < length := by
          rw [hleft, ← hlength, hcons]
          simp only [List.length_drop, List.length_cons]
          omega
        obtain ⟨htail, hall⟩ := ih _ hshorter h rfl
        refine ⟨?_, fun g hg => ?_⟩
        · rw [List.flatMap_cons, ← htail]
          exact hrest
        · rcases List.mem_cons.mp hg with rfl | hg
          · exact hfits
          · exact hall g hg

end Many

/-- Frames that are written and read over any chunking come back, and then `none`; of a
stream that was cut, the whole frames come back, and then `none` or an error as the cut is
between frames or inside of one; a stream that is read without an error is what writing its
frames gives; and a write fails, without writing anything, exactly when the type or the
length is out of range. -/
theorem framing_round_trip :
    (∀ frames : List AudioSocketFrame, (∀ f ∈ frames, f.Fits) → ∀ chunks : List (List UInt8),
      chunks.flatten = writeFrames frames →
        readFrames (.ofChunks chunks) = (frames, .ok ())) ∧
    (∀ frames : List AudioSocketFrame, (∀ f ∈ frames, f.Fits) → ∀ chunks : List (List UInt8),
      chunks.flatten <+: writeFrames frames → chunks.flatten ≠ writeFrames frames →
        ∃ whole f left, frames = whole ++ f :: left ∧
          writeFrames whole <+: chunks.flatten ∧
          chunks.flatten.length < (writeFrames (whole ++ [f])).length ∧
          (readFrames (.ofChunks chunks)).1 = whole ∧
          (chunks.flatten = writeFrames whole → (readFrames (.ofChunks chunks)).2 = .ok ()) ∧
          (chunks.flatten ≠ writeFrames whole →
            ∃ reason, (readFrames (.ofChunks chunks)).2 = .error (.connectionError reason))) ∧
    (∀ chunks : List (List UInt8), (readFrames (.ofChunks chunks)).2 = .ok () →
      (∀ f ∈ (readFrames (.ofChunks chunks)).1, f.Fits) ∧
        writeFrames (readFrames (.ofChunks chunks)).1 = chunks.flatten) ∧
    ∀ (written : List UInt8) (frameType : ℤ) (payload : List UInt8),
      (¬ (0 ≤ frameType ∧ frameType ≤ 255 ∧ payload.length ≤ 65535) →
        (∃ reason, (writeFrame written frameType payload).1 = .error (.valueError reason)) ∧
        (writeFrame written frameType payload).2 = written) ∧
      (0 ≤ frameType ∧ frameType ≤ 255 ∧ payload.length ≤ 65535 →
        (writeFrame written frameType payload).1 = .ok ()) := by
  refine ⟨?_, ?_, ?_, ?_⟩
  · intro frames hfits chunks hchunks
    rw [writeFrames_eq hfits] at hchunks
    have hrest : (Stream.ofChunks chunks).rest = frames.flatMap AudioSocketFrame.bytes := by
      rw [Stream.rest_ofChunks, hchunks]
    have hpre : (Stream.ofChunks chunks).rest <+: frames.flatMap AudioSocketFrame.bytes := by
      simp [hrest]
    obtain ⟨whole, left, rfl, hread, hend⟩ := readFrames_of_prefix hfits hpre
    rw [hrest, List.flatMap_append, List.append_right_eq_self] at hend
    rcases hend with ⟨hnil, hok⟩ | ⟨f, left', cut, reason, rfl, -, hlt, hcut, -⟩
    · have hleft : left = [] := by
        by_contra hne
        obtain ⟨f, left', rfl⟩ := List.exists_cons_of_ne_nil hne
        have hlength := length_bytes f
        rw [List.flatMap_cons, List.append_eq_nil_iff] at hnil
        rw [hnil.1, List.length_nil] at hlength
        omega
      rw [hleft, List.append_nil]
      exact Prod.ext hread hok
    · rw [List.append_cancel_left_eq, List.flatMap_cons] at hcut
      rw [← hcut, List.length_append] at hlt
      omega
  · intro frames hfits chunks hpre hne
    rw [writeFrames_eq hfits] at hpre hne
    rw [← Stream.rest_ofChunks] at hpre hne ⊢
    obtain ⟨whole, left, rfl, hread, hend⟩ := readFrames_of_prefix hfits hpre
    have hwhole : writeFrames whole = whole.flatMap AudioSocketFrame.bytes :=
      writeFrames_eq fun f hf => hfits f (List.mem_append_left _ hf)
    have hnext : ∀ f left', left = f :: left' → writeFrames (whole ++ [f]) =
        whole.flatMap AudioSocketFrame.bytes ++ f.bytes := by
      rintro f left' rfl
      rw [writeFrames_eq]
      · simp
      · intro g hg
        rw [List.mem_append, List.mem_singleton] at hg
        refine hfits g ?_
        rw [List.mem_append, List.mem_cons]
        exact hg.imp_right .inl
    rcases hend with ⟨hwholeRest, hok⟩ | ⟨f, left', cut, reason, rfl, hcut, hlt, hcutRest, herror⟩
    · obtain ⟨f, left', rfl⟩ : ∃ f left', left = f :: left' := by
        refine List.exists_cons_of_ne_nil fun hleft => hne ?_
        rw [hwholeRest, hleft, List.append_nil]
      have hlength := length_bytes f
      refine ⟨whole, f, left', rfl, ?_, ?_, hread, fun _ => hok, fun hdiff => ?_⟩
      · simp [hwhole, hwholeRest]
      · rw [hnext f left' rfl, hwholeRest, List.length_append]
        omega
      · exact absurd (hwholeRest.trans hwhole.symm) hdiff
    · refine ⟨whole, f, left', rfl, ?_, ?_, hread, fun hsame => ?_, fun _ => ⟨reason, herror⟩⟩
      · rw [hwhole, hcutRest]
        exact List.prefix_append _ _
      · rw [hnext f left' rfl, hcutRest, List.length_append, List.length_append]
        omega
      · rw [hwhole, hcutRest, List.append_right_eq_self] at hsame
        exact absurd hsame hcut
  · intro chunks hok
    obtain ⟨hrest, hfits⟩ := rest_of_readFrames hok
    rw [Stream.rest_ofChunks] at hrest
    exact ⟨hfits, by rw [writeFrames_eq hfits, hrest]⟩
  · intro written frameType payload
    refine ⟨fun hout => ?_, fun hin => ?_⟩
    · unfold writeFrame
      split
      · exact ⟨⟨_, rfl⟩, rfl⟩
      · split
        · exact ⟨⟨_, rfl⟩, rfl⟩
        · exact absurd (by omega) hout
    · rw [writeFrame, if_neg (by omega), if_neg (by omega)]

/-- An empty frame and one of audio, cut inside of both headers. -/
theorem framing_round_trip_two_frames :
    readFrames (.ofChunks [[0], [0, 0, 16, 0], [2, 1, 2]]) =
      ([⟨0, []⟩, ⟨16, [1, 2]⟩], .ok ()) :=
  framing_round_trip.1 [⟨0, []⟩, ⟨16, [1, 2]⟩] (by decide) [[0], [0, 0, 16, 0], [2, 1, 2]]
    (by decide)

end VoxBench.Telephony
