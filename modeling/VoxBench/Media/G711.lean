import VoxBench.Lib.Companding
import VoxBench.Lib.Traverse
import VoxBench.Media.Resampling

/-!
# G.711 μ-law

A 16-bit sample is coded in one octet: its sign, and the segment and the step of its magnitude
above a bias, all bits inverted. The code of a negative zero is decoded, but never written for a
zero.

## Main definitions

* `linear16ToMulaw`, `mulawToLinear16` — one sample.
* `pcm16leToMulaw`, `mulawToPcm16le` — a buffer of them.

## Main results

* `mulaw_round_trip` — octets through PCM and back.
* `mulaw_quantizes` — PCM through octets and back.
-/

namespace VoxBench.Media

open VoxBench.Lib VoxBench.Lib.Companding

def mulawBias : ℕ := 0x84

def mulawClip : ℕ := 32635

/-- `linear16_to_mulaw`. `int.bit_length` is `Nat.size`. -/
def linear16ToMulaw (sample : ℤ) : UInt8 :=
  let sample := max (-32768) (min 32767 sample)
  let sign := if sample < 0 then 0x80 else 0
  let magnitude := min (if sample < 0 then -sample else sample).toNat mulawClip
  let biased := magnitude + mulawBias
  let exponent := min 7 (biased.size - 8)
  let mantissa := (biased >>> (exponent + 3)) &&& 0x0F
  ~~~ UInt8.ofNat (sign ||| (exponent <<< 4) ||| mantissa)

/-- `mulaw_to_linear16`. -/
def mulawToLinear16 (code : ℤ) : Except PcmError ℤ :=
  if ¬ (0 ≤ code ∧ code ≤ 0xFF) then
    .error (.valueError "mu-law code must be between 0 and 255")
  else
    let inverted := (~~~ UInt8.ofNat code.toNat).toNat
    let magnitude := (((inverted &&& 0x0F) <<< 3) + mulawBias) <<< ((inverted &&& 0x70) >>> 4)
    .ok (if inverted &&& 0x80 ≠ 0 then (mulawBias : ℤ) - magnitude else magnitude - mulawBias)

/-- `pcm16le_to_mulaw`. -/
def pcm16leToMulaw (pcm : List UInt8) : Except PcmError (List UInt8) :=
  if pcm.length % 2 ≠ 0 then
    .error (.valueError "PCM16LE data length must be divisible by two")
  else .ok ((unpackSamples pcm).map linear16ToMulaw)

/-- `mulaw_to_pcm16le`. -/
def mulawToPcm16le (mulaw : List UInt8) : Except PcmError (List UInt8) :=
  (mulaw.mapM fun code => mulawToLinear16 code.toNat).map packSamples

/-! ## Octets -/

section Octets

variable {negative : Bool} {e m : ℕ}

/-- The octet of a sign, a segment and a step. -/
def octet (negative : Bool) (e m : ℕ) : UInt8 :=
  ~~~ UInt8.ofNat ((if negative then 0x80 else 0) ||| (e <<< 4) ||| m)

/-- The sample of a sign, a segment and a step. -/
def sampleOf (negative : Bool) (e m : ℕ) : ℤ :=
  let magnitude : ℤ := levelOf 4 3 e m - mulawBias
  if negative then -magnitude else magnitude

/-- The fields of an octet are what it was made of. -/
theorem fields_octet (he : e < 8) (hm : m < 16) :
    (~~~ octet negative e m).toNat &&& 0x0F = m ∧
      ((~~~ octet negative e m).toNat &&& 0x70) >>> 4 = e ∧
      ((~~~ octet negative e m).toNat &&& 0x80 ≠ 0 ↔ negative = true) := by
  have hall : ∀ negative : Bool, ∀ e < 8, ∀ m < 16,
      (~~~ octet negative e m).toNat &&& 0x0F = m ∧
        ((~~~ octet negative e m).toNat &&& 0x70) >>> 4 = e ∧
        ((~~~ octet negative e m).toNat &&& 0x80 ≠ 0 ↔ negative = true) := by
    decide +kernel
  exact hall negative e he m hm

/-- Every octet has a sign, a segment and a step. -/
theorem exists_octet (code : UInt8) : ∃ negative e m, e < 8 ∧ m < 16 ∧ code = octet negative e m := by
  have hall : ∀ inverted < 256, (inverted &&& 0x70) >>> 4 < 8 ∧ inverted &&& 0x0F < 16 ∧
      (if decide (inverted &&& 0x80 ≠ 0) then 0x80 else 0) ||| ((inverted &&& 0x70) >>> 4) <<< 4 |||
        (inverted &&& 0x0F) = inverted := by
    decide +kernel
  obtain ⟨he, hm, heq⟩ := hall (~~~ code).toNat (UInt8.toNat_lt _)
  refine ⟨decide ((~~~ code).toNat &&& 0x80 ≠ 0), _, _, he, hm, ?_⟩
  rw [octet, heq, UInt8.ofNat_toNat, UInt8.not_not]

theorem octet_eq_iff (he : e < 8) (hm : m < 16) :
    octet negative e m = 0x7F ↔ negative = true ∧ e = 0 ∧ m = 0 := by
  have hall : ∀ negative : Bool, ∀ e < 8, ∀ m < 16,
      octet negative e m = 0x7F ↔ negative = true ∧ e = 0 ∧ m = 0 := by
    decide +kernel
  exact hall negative e he m hm

theorem level_shift (e m : ℕ) : ((m <<< 3) + mulawBias) <<< e = levelOf 4 3 e m := by
  rw [Nat.shiftLeft_eq, Nat.shiftLeft_eq, levelOf]
  congr 1
  unfold mulawBias
  omega

theorem mulawToLinear16_octet (he : e < 8) (hm : m < 16) :
    mulawToLinear16 (octet negative e m).toNat = .ok (sampleOf negative e m) := by
  obtain ⟨hmantissa, hexponent, hsign⟩ := @fields_octet negative _ _ he hm
  have hrange : (0 : ℤ) ≤ (octet negative e m).toNat ∧ ((octet negative e m).toNat : ℤ) ≤ 0xFF := by
    have hlt := UInt8.toNat_lt (octet negative e m)
    omega
  rw [mulawToLinear16, if_neg (not_not.mpr hrange), Int.toNat_natCast, UInt8.ofNat_toNat]
  simp only [hmantissa, hexponent, hsign, level_shift]
  cases negative <;> simp [sampleOf]

end Octets

/-! ## Samples -/

/-- A magnitude that the code can hold, above the bias. -/
def biasedMagnitude (sample : ℤ) : ℕ := min sample.natAbs mulawClip + mulawBias

theorem biasedMagnitude_bounds (sample : ℤ) :
    2 ^ (4 + 3) ≤ biasedMagnitude sample ∧ mulawBias ≤ biasedMagnitude sample ∧
      biasedMagnitude sample < 2 ^ 15 := by
  unfold biasedMagnitude mulawClip mulawBias
  omega

theorem segment_biasedMagnitude_lt (sample : ℤ) : segmentOf 4 3 (biasedMagnitude sample) < 8 := by
  have hsize := Nat.size_le.mpr (biasedMagnitude_bounds sample).2.2
  unfold segmentOf
  omega

theorem step_biasedMagnitude_lt (sample : ℤ) : stepOf 4 3 (biasedMagnitude sample) < 16 :=
  (step_bounds (biasedMagnitude_bounds sample).1).1

/-- The coder in terms of segments and steps. -/
theorem linear16ToMulaw_eq (sample : ℤ) :
    linear16ToMulaw sample = octet (sample < 0) (segmentOf 4 3 (biasedMagnitude sample))
      (stepOf 4 3 (biasedMagnitude sample)) := by
  have hsign : max (-32768) (min 32767 sample) < 0 ↔ sample < 0 := by omega
  have hmagnitude : min (if sample < 0 then
      -max (-32768) (min 32767 sample) else max (-32768) (min 32767 sample)).toNat mulawClip +
        mulawBias = biasedMagnitude sample := by
    unfold biasedMagnitude mulawClip
    split_ifs <;> omega
  have hexponent : min 7 ((biasedMagnitude sample).size - 8) =
      segmentOf 4 3 (biasedMagnitude sample) :=
    min_eq_right (Nat.le_of_lt_succ (segment_biasedMagnitude_lt sample))
  have hmantissa : (biasedMagnitude sample >>> (segmentOf 4 3 (biasedMagnitude sample) + 3)) &&& 0x0F =
      stepOf 4 3 (biasedMagnitude sample) := by
    obtain ⟨hstep, hlow, hhigh⟩ := step_bounds (biasedMagnitude_bounds sample).1
    rw [Nat.shiftRight_eq_div_pow, show 0x0F = 2 ^ 4 - 1 from rfl, Nat.and_two_pow_sub_one_eq_mod,
      Nat.div_eq_of_lt_le hlow hhigh, Nat.add_mod_left, Nat.mod_eq_of_lt hstep]
  simp only [linear16ToMulaw, hsign, hmagnitude, hexponent, hmantissa, octet, decide_eq_true_eq]

/-- The sample that remains of a sample. -/
def quantize (sample : ℤ) : ℤ :=
  sampleOf (sample < 0) (segmentOf 4 3 (biasedMagnitude sample)) (stepOf 4 3 (biasedMagnitude sample))

theorem mulawToLinear16_linear16ToMulaw (sample : ℤ) :
    mulawToLinear16 (linear16ToMulaw sample).toNat = .ok (quantize sample) := by
  rw [linear16ToMulaw_eq,
    mulawToLinear16_octet (segment_biasedMagnitude_lt sample) (step_biasedMagnitude_lt sample)]
  rfl

/-! ## Codes of decoded samples -/

section Decoded

variable {negative : Bool} {e m : ℕ}

theorem mulawBias_le_level : mulawBias ≤ levelOf 4 3 e m := by
  calc mulawBias ≤ (2 ^ 4 + m) * 2 ^ 3 + 2 ^ (3 - 1) := by
        unfold mulawBias
        omega
    _ ≤ levelOf 4 3 e m := Nat.le_mul_of_pos_right _ (by positivity)

theorem level_eq_mulawBias_iff : levelOf 4 3 e m = mulawBias ↔ e = 0 ∧ m = 0 := by
  constructor
  · intro h
    have hbase : (2 ^ 4 + m) * 2 ^ 3 + 2 ^ (3 - 1) ≤ levelOf 4 3 e m :=
      Nat.le_mul_of_pos_right _ (by positivity)
    obtain rfl : m = 0 := by
      unfold mulawBias at h
      omega
    refine ⟨?_, rfl⟩
    have hpow : 2 ^ e = 2 ^ 0 := by
      unfold levelOf mulawBias at h
      omega
    exact Nat.pow_right_injective le_rfl hpow
  · rintro ⟨rfl, rfl⟩
    rfl

theorem level_lt (he : e < 8) (hm : m < 16) : levelOf 4 3 e m < 2 ^ 15 :=
  (level_bounds (by omega) hm).2.trans_le (Nat.pow_le_pow_right (by omega) (by omega))

theorem isSample_sampleOf (he : e < 8) (hm : m < 16) : IsSample (sampleOf negative e m) := by
  have hlow := @mulawBias_le_level e m
  have hhigh := level_lt he hm
  unfold IsSample sampleOf mulawBias at *
  cases negative <;> simp <;> omega

theorem biasedMagnitude_sampleOf (he : e < 8) (hm : m < 16) :
    biasedMagnitude (sampleOf negative e m) = levelOf 4 3 e m := by
  have hlow := @mulawBias_le_level e m
  have hhigh := level_lt he hm
  unfold biasedMagnitude sampleOf mulawBias mulawClip at *
  cases negative <;> simp <;> omega

theorem sampleOf_neg_iff : sampleOf negative e m < 0 ↔ negative = true ∧ ¬ (e = 0 ∧ m = 0) := by
  rw [← level_eq_mulawBias_iff]
  have hlow := @mulawBias_le_level e m
  unfold sampleOf
  cases negative <;> simp <;> omega

/-- The code of a decoded sample has its fields, without the sign of a zero. -/
theorem linear16ToMulaw_sampleOf (he : e < 8) (hm : m < 16) :
    linear16ToMulaw (sampleOf negative e m) =
      octet (negative && !decide (e = 0 ∧ m = 0)) e m := by
  have hsign : decide (sampleOf negative e m < 0) = (negative && !decide (e = 0 ∧ m = 0)) := by
    rw [Bool.eq_iff_iff, decide_eq_true_iff, sampleOf_neg_iff, Bool.and_eq_true,
      Bool.not_eq_true', decide_eq_false_iff_not]
  rw [linear16ToMulaw_eq, biasedMagnitude_sampleOf he hm, segment_level (by omega) hm,
    step_level (by omega) hm, hsign]

/-- Codes survive decoding, but that of a negative zero. -/
theorem linear16ToMulaw_of_decoded {code : UInt8} {sample : ℤ}
    (h : mulawToLinear16 code.toNat = .ok sample) :
    linear16ToMulaw sample = if code = 0x7F then 0xFF else code := by
  obtain ⟨negative, e, m, he, hm, rfl⟩ := exists_octet code
  rw [mulawToLinear16_octet he hm] at h
  cases h
  rw [linear16ToMulaw_sampleOf he hm]
  by_cases hzero : octet negative e m = 0x7F
  · obtain ⟨rfl, rfl, rfl⟩ := (octet_eq_iff he hm).mp hzero
    decide
  · rw [if_neg hzero]
    rw [octet_eq_iff he hm, not_and] at hzero
    cases negative with
    | false => rfl
    | true => simp [hzero rfl]

theorem mulawToLinear16_ok (code : UInt8) :
    ∃ sample, mulawToLinear16 code.toNat = .ok sample ∧ IsSample sample := by
  obtain ⟨negative, e, m, he, hm, rfl⟩ := exists_octet code
  exact ⟨_, mulawToLinear16_octet he hm, isSample_sampleOf he hm⟩

end Decoded

/-! ## Quantization -/

theorem biasedMagnitude_neg (x : ℤ) : biasedMagnitude (-x) = biasedMagnitude x := by
  rw [biasedMagnitude, biasedMagnitude, Int.natAbs_neg]

theorem quantize_of_nonneg {x : ℤ} (h : 0 ≤ x) :
    quantize x = (levelOf 4 3 (segmentOf 4 3 (biasedMagnitude x))
      (stepOf 4 3 (biasedMagnitude x)) : ℤ) - mulawBias := by
  simp [quantize, sampleOf, not_lt.mpr h]

theorem quantize_neg (x : ℤ) : quantize (-x) = -quantize x := by
  rcases lt_trichotomy x 0 with hneg | rfl | hpos
  · simp [quantize, sampleOf, biasedMagnitude_neg, hneg, hneg.le]
  · decide
  · simp [quantize, sampleOf, biasedMagnitude_neg, hpos, not_lt.mpr hpos.le]

theorem quantize_nonneg {x : ℤ} (h : 0 ≤ x) : 0 ≤ quantize x := by
  rw [quantize_of_nonneg h, sub_nonneg]
  exact_mod_cast mulawBias_le_level

theorem quantize_quantize (x : ℤ) : quantize (quantize x) = quantize x := by
  have he := segment_biasedMagnitude_lt x
  have hm := step_biasedMagnitude_lt x
  obtain ⟨y, hy⟩ : ∃ y, y = quantize x := ⟨_, rfl⟩
  have hcoded := mulawToLinear16_linear16ToMulaw y
  rw [hy, quantize, linear16ToMulaw_sampleOf he hm, mulawToLinear16_octet he hm, ← quantize] at hcoded
  rw [← Except.ok.inj hcoded, quantize]
  by_cases hzero : segmentOf 4 3 (biasedMagnitude x) = 0 ∧ stepOf 4 3 (biasedMagnitude x) = 0
  · have hlevel := level_eq_mulawBias_iff.mpr hzero
    simp [sampleOf, hlevel]
  · simp [hzero]

/-- Larger samples do not become smaller ones. -/
theorem quantize_mono : Monotone quantize := by
  have hnonneg : ∀ {x y : ℤ}, 0 ≤ x → x ≤ y → quantize x ≤ quantize y := by
    intro x y hx hxy
    rw [quantize_of_nonneg hx, quantize_of_nonneg (hx.trans hxy)]
    have hbiased : biasedMagnitude x ≤ biasedMagnitude y := by
      unfold biasedMagnitude
      omega
    have hlevel := level_mono (w := 4) (s := 3) (by omega) (biasedMagnitude_bounds x).1 hbiased
    omega
  intro x y hxy
  by_cases hx : 0 ≤ x
  · exact hnonneg hx hxy
  · have hopposite : 0 ≤ -x := by omega
    by_cases hy : 0 ≤ y
    · have hlow := quantize_nonneg hopposite
      rw [quantize_neg] at hlow
      have hhigh := quantize_nonneg hy
      omega
    · have hmono := hnonneg (x := -y) (by omega) (neg_le_neg hxy)
      rw [quantize_neg, quantize_neg] at hmono
      omega

/-- The error is at most one part in 32 of the magnitude above the bias. -/
theorem quantize_near {x : ℤ} (h : IsSample x) : 32 * |quantize x - x| ≤ |x| + mulawBias := by
  have hnonneg : ∀ {x : ℤ}, 0 ≤ x → x ≤ 32768 → 32 * |quantize x - x| ≤ |x| + mulawBias := by
    intro x hx hrange
    rw [quantize_of_nonneg hx, abs_of_nonneg hx, Int.abs_eq_natAbs]
    by_cases hclip : x ≤ mulawClip
    · have hbiased : (biasedMagnitude x : ℤ) = x + mulawBias := by
        unfold biasedMagnitude
        omega
      have hnear := level_near (w := 4) (s := 3) (by omega) (biasedMagnitude_bounds x).1
      omega
    · have hbiased : biasedMagnitude x = 32767 := by
        unfold biasedMagnitude mulawBias mulawClip at *
        omega
      have hlevel : levelOf 4 3 (segmentOf 4 3 32767) (stepOf 4 3 32767) = 32256 := by decide
      rw [hbiased, hlevel]
      unfold mulawBias mulawClip at *
      omega
  obtain ⟨hlow, hhigh⟩ := h
  by_cases hx : 0 ≤ x
  · exact hnonneg hx (by omega)
  · have hopposite := hnonneg (x := -x) (by omega) (by omega)
    rwa [quantize_neg, abs_neg, ← neg_add', abs_neg, ← sub_eq_add_neg] at hopposite

/-! ## Buffers -/

/-- A buffer of octets is decoded octet by octet, to a buffer that holds the samples. -/
theorem mulawToPcm16le_eq (mulaw : List UInt8) :
    ∃ samples, List.Forall₂ (fun (code : UInt8) sample => mulawToLinear16 code.toNat = .ok sample)
        mulaw samples ∧
      mulawToPcm16le mulaw = .ok (packSamples samples) ∧
      unpackSamples (packSamples samples) = samples := by
  obtain ⟨samples, hsamples⟩ := exists_mapM fun (code : UInt8) (_ : code ∈ mulaw) =>
    (mulawToLinear16_ok code).imp fun _ => And.left
  have hforall := mapM_eq_ok_iff.mp hsamples
  refine ⟨samples, hforall, by rw [mulawToPcm16le, hsamples]; rfl, ?_⟩
  apply unpackSamples_packSamples
  intro sample hsample
  obtain ⟨code, -, hcode⟩ := exists_mem_of_forall₂ hforall hsample
  obtain ⟨sample', hcode', hrange⟩ := mulawToLinear16_ok code
  cases hcode.symm.trans hcode'
  exact hrange

/-- **Round trip of the codec.** Every buffer of octets is decoded, to two bytes for each octet,
and coded again it is the buffer with the negative zeros made positive. -/
theorem mulaw_round_trip (mulaw : List UInt8) :
    ∃ pcm, mulawToPcm16le mulaw = .ok pcm ∧ pcm.length = 2 * mulaw.length ∧
      pcm16leToMulaw pcm = .ok (mulaw.map fun code => if code = 0x7F then 0xFF else code) := by
  obtain ⟨samples, hforall, hdecoded, hunpack⟩ := mulawToPcm16le_eq mulaw
  have hlength : (packSamples samples).length = 2 * mulaw.length := by
    rw [length_packSamples, hforall.length_eq]
  refine ⟨_, hdecoded, hlength, ?_⟩
  rw [pcm16leToMulaw, if_neg (by omega), hunpack]
  clear hdecoded hunpack hlength
  congr 1
  induction hforall with
  | nil => rfl
  | cons hcode _ ih => rw [List.map_cons, List.map_cons, linear16ToMulaw_of_decoded hcode, ih]

/-- Coded samples are decoded to the quantized ones. -/
theorem mulawToPcm16le_coded (samples : List ℤ) :
    mulawToPcm16le (samples.map linear16ToMulaw) = .ok (packSamples (samples.map quantize)) := by
  have hdecoded : (samples.map linear16ToMulaw).mapM (fun code => mulawToLinear16 code.toNat) =
      .ok (samples.map quantize) := by
    rw [mapM_eq_ok_iff, List.forall₂_map_left_iff, List.forall₂_map_right_iff, List.forall₂_same]
    exact fun x _ => mulawToLinear16_linear16ToMulaw x
  rw [mulawToPcm16le, hdecoded]
  rfl

theorem unpackSamples_quantized (samples : List ℤ) :
    unpackSamples (packSamples (samples.map quantize)) = samples.map quantize := by
  apply unpackSamples_packSamples
  intro y hy
  obtain ⟨x, -, rfl⟩ := List.mem_map.mp hy
  exact isSample_sampleOf (segment_biasedMagnitude_lt x) (step_biasedMagnitude_lt x)

/-- A buffer through the codec. -/
theorem codec_eq_ok {pcm pcm' : List UInt8} (h : pcm16leToMulaw pcm >>= mulawToPcm16le = .ok pcm') :
    pcm' = packSamples ((unpackSamples pcm).map quantize) ∧ pcm'.length = pcm.length := by
  rw [pcm16leToMulaw] at h
  by_cases hodd : pcm.length % 2 ≠ 0
  · rw [if_pos hodd] at h
    cases h
  rw [if_neg hodd] at h
  have hdecoded : mulawToPcm16le ((unpackSamples pcm).map linear16ToMulaw) = .ok pcm' := h
  rw [mulawToPcm16le_coded, Except.ok.injEq] at hdecoded
  refine ⟨hdecoded.symm, ?_⟩
  rw [← hdecoded, length_packSamples, List.length_map, length_unpackSamples]
  omega

/-- **What the codec keeps of a signal.** Coded and decoded, a buffer has as many samples, and each
is the quantized one. Quantizing keeps the order and the opposites, and is off by at most one part
in 32 of the magnitude above the bias. A second pass changes nothing. -/
theorem mulaw_quantizes {pcm mulaw : List UInt8} (h : pcm16leToMulaw pcm = .ok mulaw) :
    ∃ decoded, mulawToPcm16le mulaw = .ok decoded ∧ decoded.length = pcm.length ∧
      unpackSamples decoded = (unpackSamples pcm).map quantize ∧
      Monotone quantize ∧ (∀ x, quantize (-x) = -quantize x) ∧
      (∀ x, IsSample x → 32 * |quantize x - x| ≤ |x| + mulawBias) ∧
      ∃ again, pcm16leToMulaw decoded = .ok again ∧ mulawToPcm16le again = .ok decoded := by
  unfold pcm16leToMulaw at h
  split_ifs at h with hodd
  cases h
  have hlength : (packSamples ((unpackSamples pcm).map quantize)).length = pcm.length := by
    rw [length_packSamples, List.length_map, length_unpackSamples]
    omega
  refine ⟨_, mulawToPcm16le_coded _, hlength, unpackSamples_quantized _, quantize_mono,
    quantize_neg, fun x => quantize_near, _, if_neg (by omega), ?_⟩
  rw [unpackSamples_quantized, mulawToPcm16le_coded, List.map_map]
  congr 3
  funext x
  exact quantize_quantize x

theorem mulaw_quantizes_pair :
    ∃ decoded, mulawToPcm16le [0x7F, 0x80] = .ok decoded ∧
      unpackSamples decoded = (unpackSamples [0xFF, 0xFF, 0xFF, 0x7F]).map quantize := by
  have hcoded : pcm16leToMulaw [0xFF, 0xFF, 0xFF, 0x7F] = .ok [0x7F, 0x80] := by decide
  obtain ⟨decoded, hdecoded, -, hsamples, -⟩ := mulaw_quantizes hcoded
  exact ⟨decoded, hdecoded, hsamples⟩

end VoxBench.Media
