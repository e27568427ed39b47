import VoxBench.ControlPlane.Models
import VoxBench.Lib.Delimited
import VoxBench.Lib.Hmac
import VoxBench.Lib.Text
import Mathlib.Algebra.Order.Floor.Ring
import Mathlib.Data.Rat.Floor
import Mathlib.Tactic.Linarith

/-!
# Audio sessions

A session cookie is a version, an expiry in seconds and a nonce, with dots between them, and a
signature of the three under the secret of the service. It is read back by splitting it at its
dots; the expiry is bounded on both sides against the clock.

## Main definitions

* `RemoteAudioSessionAuth.issueCookie`, `remainingSeconds` — a cookie and its check.
* `authorizeRemoteAudio` — the check of a request.

## Main results

* `cookies_sound` — which cookies are accepted, when, and for how long.
* `negative_clock_accepted` — a clock before the epoch is rounded up, not down.
-/

namespace VoxBench.ControlPlane

open VoxBench.Lib

/-! ## Cookies -/

/-- `int(reading)`, which drops the fraction. -/
def pyInt (reading : ℚ) : ℤ := if 0 ≤ reading then ⌊reading⌋ else ⌈reading⌉

/-- An integer in an f-string. -/
def decimal (n : ℤ) : List Char :=
  if 0 ≤ n then Nat.toDigits 10 n.toNat else '-' :: Nat.toDigits 10 (-n).toNat

/-- `text.isascii()`. -/
def isAscii (text : List Char) : Bool := text.all fun c => c.toNat < 128

/-- `text.isdigit()`, of an ASCII text. -/
def isDigits (text : List Char) : Bool := text ≠ [] && text.all Char.isDigit

inductive AudioSessionError where
  /-- `AudioSessionLoginError`: "web-audio-login-rejected". -/
  | login
  /-- A text that is not ASCII in `hmac.compare_digest`. -/
  | typeError
  | unicodeEncodeError
  /-- An `HTTPException` with its status code and detail. -/
  | http (statusCode : ℕ) (detail : String)
  deriving DecidableEq, Repr

/-- `hmac.compare_digest`. -/
def compareDigest (a b : List Char) : Except AudioSessionError Bool :=
  if isAscii a && isAscii b then .ok (a = b) else .error .typeError

/-- `text.encode("ascii")`. -/
def encodeAscii (text : List Char) : List UInt8 := text.map fun c => UInt8.ofNat c.toNat

structure RemoteAudioSessionAuth where
  loginToken : String
  signingSecret : List UInt8
  ttlSeconds : ℤ
  cookieSecure : Bool

namespace RemoteAudioSessionAuth

/-- `_signature`, of an ASCII payload. -/
def signature (auth : RemoteAudioSessionAuth) (payload : List Char) : List Char :=
  Hmac.urlsafe (Hmac.digest auth.signingSecret (encodeAscii payload))

/-- What is signed: a version, an expiry and a nonce. -/
def payload (auth : RemoteAudioSessionAuth) (clock : ℚ) (nonce : String) : List Char :=
  "v1.".toList ++ decimal (pyInt clock + auth.ttlSeconds) ++ '.' :: nonce.toList

/-- `issue_cookie`, with a reading of the clock and a nonce. -/
def issueCookie (auth : RemoteAudioSessionAuth) (suppliedLoginToken : String) (clock : ℚ)
    (nonce : String) : Except AudioSessionError String :=
  if ¬ isAscii suppliedLoginToken.toList then .error .login
  else do
    let same ← compareDigest suppliedLoginToken.toList auth.loginToken.toList
    if ¬ same then .error .login
    else
      let payload := auth.payload clock nonce
      if ¬ isAscii payload then .error .unicodeEncodeError
      else .ok (String.ofList (payload ++ '.' :: auth.signature payload))

/-- `remaining_seconds`, at a reading of the clock. -/
def remainingSeconds (auth : RemoteAudioSessionAuth) (clock : ℚ) (cookie : Option String) :
    Option ℤ :=
  match cookie with
  | none => none
  | some cookie =>
      if ¬ isAscii cookie.toList ∨ cookie.length > 512 then none
      else
        match cookie.toList.splitOn '.' with
        | [version, expires, nonce, supplied] =>
            if version ≠ "v1".toList ∨ ¬ isDigits expires then none
            else
              let payload := ['.'].intercalate [version, expires, nonce]
              if supplied ≠ auth.signature payload then none
              else
                let now := pyInt clock
                let expiresAt : ℤ := Nat.ofDigitChars 10 expires 0
                let remaining := expiresAt - now
                if remaining ≤ 0 ∨ remaining > auth.ttlSeconds then none else some remaining
        | _ => none

end RemoteAudioSessionAuth

/-- `_authorize_remote_audio`, of a request with this header and this cookie. -/
def authorizeRemoteAudio (authorization : String) (cookie : Option String) (expectedToken : String)
    (sessionAuth : Option RemoteAudioSessionAuth) (clock : ℚ) : Except AudioSessionError Unit :=
  let text := authorization.toList
  let scheme := text.takeWhile (· ≠ ' ')
  let supplied := (text.dropWhile (· ≠ ' ')).drop 1
  let isBearer := ' ' ∈ text ∧ scheme.map Char.toLower = "bearer".toList ∧ supplied ≠ [] ∧
    isAscii supplied ∧ ' ' ∉ supplied
  let bearer := if isBearer then compareDigest supplied expectedToken.toList else .ok false
  do
    let authorized ← bearer
    if authorized ∨ sessionAuth.any fun auth => (auth.remainingSeconds clock cookie).isSome then
      .ok ()
    else .error (.http 401 "remote recording authorization required")

/-! ## Readings and numbers -/

theorem pyInt_of_nonneg {reading : ℚ} (h : 0 ≤ reading) : pyInt reading = ⌊reading⌋ := if_pos h

/-- Dropping the fraction moves a reading towards zero. -/
theorem pyInt_spec (reading : ℚ) :
    (reading < pyInt reading + 1) ∧ (0 ≤ reading → (pyInt reading : ℚ) ≤ reading) := by
  simp only [pyInt]
  split_ifs with h
  · exact ⟨Int.lt_floor_add_one reading, fun _ => Int.floor_le reading⟩
  · refine ⟨lt_of_le_of_lt (Int.le_ceil reading) (lt_add_one _), fun h' => absurd h' h⟩

theorem isDigits_decimal_iff {n : ℤ} : isDigits (decimal n) = true ↔ 0 ≤ n := by
  simp only [isDigits, decimal]
  by_cases h : 0 ≤ n
  · simp only [h, iff_true, Bool.and_eq_true, decide_eq_true_eq, List.all_eq_true]
    exact ⟨Nat.toDigits_ne_nil, fun c hc => Text.isDigit_of_mem_toDigits hc⟩
  · simp only [h, iff_false]
    simp

theorem ofDigitChars_decimal {n : ℤ} (h : 0 ≤ n) :
    (Nat.ofDigitChars 10 (decimal n) 0 : ℤ) = n := by
  rw [decimal, if_pos h, Nat.ofDigitChars_ten_toDigits, Int.toNat_of_nonneg h]

theorem dot_notMem_decimal (n : ℤ) : '.' ∉ decimal n := by
  rw [decimal, ← Text.toList_int]
  exact Text.notMem_toList_int (by decide) (by decide)

/-! ## Fields -/

/-- The payload of some fields. -/
def payloadOf (expires nonce : List Char) : List Char :=
  "v1".toList ++ '.' :: (expires ++ '.' :: nonce)

theorem payload_eq (auth : RemoteAudioSessionAuth) (clock : ℚ) (nonce : String) :
    auth.payload clock nonce =
      payloadOf (decimal (pyInt clock + auth.ttlSeconds)) nonce.toList := by
  simp [RemoteAudioSessionAuth.payload, payloadOf]

theorem dot_notMem_signature (auth : RemoteAudioSessionAuth) (payload : List Char) :
    '.' ∉ auth.signature payload :=
  fun h => (Hmac.mem_urlsafe h).1 rfl

theorem intercalate_fields (version expires nonce : List Char) :
    ['.'].intercalate [version, expires, nonce] = version ++ '.' :: (expires ++ '.' :: nonce) := by
  simp

/-- The fields of a text with three dots. -/
theorem splitOn_fields {a b c d : List Char} (ha : '.' ∉ a) (hb : '.' ∉ b) (hc : '.' ∉ c)
    (hd : '.' ∉ d) :
    (a ++ '.' :: (b ++ '.' :: c) ++ '.' :: d).splitOn '.' = [a, b, c, d] := by
  rw [List.append_assoc, List.cons_append, List.append_assoc, List.cons_append,
    List.splitOn_append_cons_self_of_not_mem ha, List.splitOn_append_cons_self_of_not_mem hb,
    List.splitOn_append_cons_self_of_not_mem hc, List.splitOn_eq_singleton hd]

theorem dot_notMem_of_isDigits {text : List Char} (h : isDigits text = true) : '.' ∉ text := by
  simp only [isDigits, Bool.and_eq_true, List.all_eq_true] at h
  exact fun hmem => absurd (h.2 _ hmem) (by decide)

/-! ## What is accepted -/

namespace RemoteAudioSessionAuth

variable {auth : RemoteAudioSessionAuth} {clock : ℚ} {cookie : String} {r : ℤ}

/-- A text that is accepted: its fields, the signature of the first three, and what remains. -/
structure Accepted (auth : RemoteAudioSessionAuth) (clock : ℚ) (cookie : String) (r : ℤ)
    (expires nonce : List Char) : Prop where
  ascii : isAscii cookie.toList = true
  length_le : cookie.length ≤ 512
  digits : isDigits expires = true
  nonce_field : '.' ∉ nonce
  text : cookie.toList =
    payloadOf expires nonce ++ '.' :: auth.signature (payloadOf expires nonce)
  remaining : r = Nat.ofDigitChars 10 expires 0 - pyInt clock
  pos : 0 < r
  le : r ≤ auth.ttlSeconds

theorem exists_accepted (h : auth.remainingSeconds clock (some cookie) = some r) :
    ∃ expires nonce, Accepted auth clock cookie r expires nonce := by
  simp only [remainingSeconds] at h
  split_ifs at h with hform
  simp only [not_or, not_not, not_lt] at hform
  split at h
  · rename_i version expires nonce supplied hsplit
    split_ifs at h with hversion hsignature hrange
    simp only [not_or, not_not] at hversion
    rw [not_not] at hsignature
    rw [intercalate_fields, hversion.1] at hsignature
    obtain rfl := Option.some.inj h
    have htext : cookie.toList = ['.'].intercalate [version, expires, nonce, supplied] := by
      rw [← hsplit, List.intercalate_splitOn]
    refine ⟨expires, nonce, hform.1, hform.2, hversion.2, ?_, ?_, rfl, by omega, by omega⟩
    · apply @mark_notMem_of_splitOn Char _ _ '.' cookie.toList nonce
      rw [hsplit]
      simp
    · rw [htext, hversion.1, hsignature]
      simp [payloadOf]
  · cases h

theorem Accepted.eq_some {expires nonce : List Char}
    (h : Accepted auth clock cookie r expires nonce) :
    auth.remainingSeconds clock (some cookie) = some r := by
  have hsplit : cookie.toList.splitOn '.' =
      ["v1".toList, expires, nonce, auth.signature (payloadOf expires nonce)] := by
    rw [h.text, payloadOf]
    exact splitOn_fields (by decide) (dot_notMem_of_isDigits h.digits) h.nonce_field
      (dot_notMem_signature auth _)
  have hpos := h.pos
  have hle := h.le
  have hr := h.remaining
  simp only [remainingSeconds, hsplit, h.ascii, h.digits, intercalate_fields]
  rw [if_neg (by simp [h.length_le]), if_neg (by simp), if_neg (by rw [payloadOf]; simp),
    if_neg (by omega), hr]

/-- What a login with the right token is given. -/
theorem issueCookie_eq_ok {suppliedLoginToken nonce : String} {clock : ℚ}
    (h : auth.issueCookie suppliedLoginToken clock nonce = .ok cookie) :
    isAscii (auth.payload clock nonce) = true ∧
      cookie.toList = auth.payload clock nonce ++ '.' :: auth.signature (auth.payload clock nonce) := by
  simp only [issueCookie] at h
  by_cases htoken : isAscii suppliedLoginToken.toList = true
  · rw [if_neg (not_not.mpr htoken)] at h
    obtain ⟨same, -, h⟩ := bind_eq_ok.mp h
    split_ifs at h with hsame hascii
    cases h
    exact ⟨hascii, String.toList_ofList⟩
  · rw [if_pos htoken] at h
    cases h

/-- The right token is given a cookie, of at most 44 characters more than its payload and a dot. -/
theorem exists_issueCookie {nonce : String} {clock : ℚ} (htoken : isAscii auth.loginToken.toList = true)
    (hascii : isAscii (auth.payload clock nonce) = true)
    (hlength : (auth.payload clock nonce).length ≤ 467) :
    ∃ cookie, auth.issueCookie auth.loginToken clock nonce = .ok cookie ∧ cookie.length ≤ 512 := by
  refine ⟨String.ofList (auth.payload clock nonce ++ '.' :: auth.signature (auth.payload clock nonce)),
    ?_, ?_⟩
  · simp only [issueCookie, compareDigest, htoken, hascii, Bool.and_self, not_true_eq_false, if_true,
      if_false, decide_true]
    rfl
  · have hsignature := Hmac.length_urlsafe_le
      (Hmac.digest auth.signingSecret (encodeAscii (auth.payload clock nonce)))
    rw [Hmac.length_digest] at hsignature
    rw [String.length_ofList, List.length_append, List.length_cons, signature]
    omega

theorem isAscii_signed {payload : List Char} (h : isAscii payload = true) :
    isAscii (payload ++ '.' :: auth.signature payload) = true := by
  simp only [isAscii, List.all_append, List.all_cons, Bool.and_eq_true, List.all_eq_true,
    decide_eq_true_eq] at h ⊢
  exact ⟨h, by decide, fun c hc => (Hmac.mem_urlsafe hc).2⟩

end RemoteAudioSessionAuth

theorem payloadOf_inj {expires expires' nonce nonce' : List Char} (h : '.' ∉ expires)
    (h' : '.' ∉ expires') (heq : payloadOf expires nonce = payloadOf expires' nonce') :
    expires = expires' ∧ nonce = nonce' :=
  append_mark_inj h h' (List.cons.inj (List.append_cancel_left heq)).2

/-- A payload has two dots. -/
theorem count_payloadOf {expires nonce : List Char} (h : '.' ∉ expires) (h' : '.' ∉ nonce) :
    (payloadOf expires nonce).count '.' = 2 := by
  have hversion : "v1".toList.count '.' = 0 := by decide
  rw [payloadOf, List.count_append, List.count_cons_self, List.count_append, List.count_cons_self,
    hversion, List.count_eq_zero_of_not_mem h, List.count_eq_zero_of_not_mem h']

/-! ## Guarantees -/

/-- The digests of two payloads collide only if secrets and payloads are the same. -/
def Distinguishes (secret secret' : List UInt8) (payload payload' : List Char) : Prop :=
  Hmac.digest secret (encodeAscii payload) = Hmac.digest secret' (encodeAscii payload') →
    secret = secret' ∧ payload = payload'

/-- A signature is known only for the payloads that were signed. -/
def Unforged (auth : RemoteAudioSessionAuth) (signed : Set (List Char)) (cookie : String) : Prop :=
  ∀ payload, cookie.toList = payload ++ '.' :: auth.signature payload → payload ∈ signed

namespace RemoteAudioSessionAuth

section Issued

variable {auth : RemoteAudioSessionAuth} {suppliedLoginToken nonce cookie : String} {t₀ : ℚ}

theorem signature_inj {auth auth' : RemoteAudioSessionAuth} {payload payload' : List Char}
    (h : auth.signature payload = auth'.signature payload')
    (hd : Distinguishes auth.signingSecret auth'.signingSecret payload payload') :
    auth.signingSecret = auth'.signingSecret ∧ payload = payload' := by
  apply hd
  apply Hmac.urlsafe_inj _ h
  rw [Hmac.length_digest, Hmac.length_digest]

/-- The fields of an accepted text that has the payload of an issued one. -/
theorem Accepted.fields_eq {auth' : RemoteAudioSessionAuth} {presented : String} {t : ℚ} {r : ℤ}
    {expires nonce' : List Char} (h : Accepted auth' t presented r expires nonce')
    (heq : payloadOf expires nonce' = auth.payload t₀ nonce) :
    expires = decimal (pyInt t₀ + auth.ttlSeconds) := by
  rw [payload_eq] at heq
  exact (payloadOf_inj (dot_notMem_of_isDigits h.digits) (dot_notMem_decimal _) heq).1

/-- When an issued cookie is accepted. -/
theorem remaining_issued_iff (h : auth.issueCookie suppliedLoginToken t₀ nonce = .ok cookie)
    (hnonce : '.' ∉ nonce.toList) (hlength : cookie.length ≤ 512) {t : ℚ} {r : ℤ} :
    auth.remainingSeconds t (some cookie) = some r ↔
      r = pyInt t₀ + auth.ttlSeconds - pyInt t ∧ 0 < r ∧ r ≤ auth.ttlSeconds ∧
        0 ≤ pyInt t₀ + auth.ttlSeconds := by
  obtain ⟨hascii, htext⟩ := issueCookie_eq_ok h
  constructor
  · intro haccepted
    obtain ⟨expires, nonce', haccepted⟩ := exists_accepted haccepted
    have hpayload := (append_last_mark_inj (dot_notMem_signature _ _) (dot_notMem_signature _ _)
      (haccepted.text.symm.trans htext)).1
    have hexpires := haccepted.fields_eq hpayload
    have hnonneg : 0 ≤ pyInt t₀ + auth.ttlSeconds := by
      rw [← isDigits_decimal_iff, ← hexpires]
      exact haccepted.digits
    refine ⟨?_, haccepted.pos, haccepted.le, hnonneg⟩
    rw [haccepted.remaining, hexpires, ofDigitChars_decimal hnonneg]
  · rintro ⟨hr, hpos, hle, hnonneg⟩
    rw [payload_eq] at htext
    refine Accepted.eq_some ⟨?_, hlength, isDigits_decimal_iff.mpr hnonneg, hnonce, htext, ?_, hpos,
      hle⟩
    · rw [htext, ← payload_eq]
      exact isAscii_signed hascii
    · rw [ofDigitChars_decimal hnonneg, hr]

/-- From the epoch on, the readings are rounded down. -/
theorem remaining_issued_floor_iff (h : auth.issueCookie suppliedLoginToken t₀ nonce = .ok cookie)
    (hnonce : '.' ∉ nonce.toList) (hlength : cookie.length ≤ 512) {t : ℚ} {r : ℤ} (ht₀ : 0 ≤ t₀)
    (ht : 0 ≤ t) :
    auth.remainingSeconds t (some cookie) = some r ↔
      r = ⌊t₀⌋ + auth.ttlSeconds - ⌊t⌋ ∧ 0 < r ∧ r ≤ auth.ttlSeconds := by
  rw [remaining_issued_iff h hnonce hlength, pyInt_of_nonneg ht₀, pyInt_of_nonneg ht]
  have hnow : 0 ≤ ⌊t⌋ := Int.floor_nonneg.mpr ht
  constructor
  · rintro ⟨hr, hpos, hle, -⟩
    exact ⟨hr, hpos, hle⟩
  · rintro ⟨hr, hpos, hle⟩
    exact ⟨hr, hpos, hle, by omega⟩

/-- An edit of an issued cookie is not accepted. -/
theorem remaining_edited (h : auth.issueCookie suppliedLoginToken t₀ nonce = .ok cookie)
    (hnonce : '.' ∉ nonce.toList) {edited : String} (hedit : Edit cookie.toList edited.toList)
    (hd : ∀ payload tag, '.' ∉ tag → edited.toList = payload ++ '.' :: tag →
      Distinguishes auth.signingSecret auth.signingSecret (auth.payload t₀ nonce) payload) (t : ℚ) :
    auth.remainingSeconds t (some edited) = none := by
  obtain ⟨-, htext⟩ := issueCookie_eq_ok h
  by_contra hsome
  obtain ⟨r, hr⟩ := Option.ne_none_iff_exists'.mp hsome
  obtain ⟨expires, nonce', haccepted⟩ := exists_accepted hr
  have hdots : (auth.payload t₀ nonce).count '.' = (payloadOf expires nonce').count '.' := by
    rw [payload_eq, count_payloadOf (dot_notMem_decimal _) hnonce,
      count_payloadOf (dot_notMem_of_isDigits haccepted.digits) haccepted.nonce_field]
  have hpayload : auth.payload t₀ nonce = payloadOf expires nonce' := by
    have hone := hedit
    rw [htext, haccepted.text] at hone
    rcases hone.one_side (dot_notMem_signature _ _) (dot_notMem_signature _ _) hdots with
      hsame | hsame
    · exact hsame
    · exact (signature_inj hsame
        (hd _ _ (dot_notMem_signature _ _) haccepted.text)).2
  apply hedit.ne
  rw [htext, haccepted.text, hpayload]

/-- A cookie is not accepted under another secret. -/
theorem remaining_other (h : auth.issueCookie suppliedLoginToken t₀ nonce = .ok cookie)
    {other : RemoteAudioSessionAuth} (hother : other.signingSecret ≠ auth.signingSecret)
    (hd : Distinguishes other.signingSecret auth.signingSecret (auth.payload t₀ nonce)
      (auth.payload t₀ nonce)) (t : ℚ) :
    other.remainingSeconds t (some cookie) = none := by
  obtain ⟨-, htext⟩ := issueCookie_eq_ok h
  by_contra hsome
  obtain ⟨r, hr⟩ := Option.ne_none_iff_exists'.mp hsome
  obtain ⟨expires, nonce', haccepted⟩ := exists_accepted hr
  obtain ⟨hpayload, hsignature⟩ := append_last_mark_inj (dot_notMem_signature _ _)
    (dot_notMem_signature _ _) (haccepted.text.symm.trans htext)
  rw [hpayload] at hsignature
  exact hother (signature_inj hsignature hd).1

end Issued

/-- What is accepted was signed. -/
theorem signed_of_accepted {auth : RemoteAudioSessionAuth} {signed : Set (List Char)}
    {presented : String} {t : ℚ} {r : ℤ} (hunforged : Unforged auth signed presented)
    (h : auth.remainingSeconds t (some presented) = some r) :
    ∃ expires nonce, payloadOf expires nonce ∈ signed ∧ '.' ∉ expires ∧ '.' ∉ nonce ∧
      presented.toList = payloadOf expires nonce ++ '.' :: auth.signature (payloadOf expires nonce) := by
  obtain ⟨expires, nonce, haccepted⟩ := exists_accepted h
  exact ⟨expires, nonce, hunforged _ haccepted.text, dot_notMem_of_isDigits haccepted.digits,
    haccepted.nonce_field, haccepted.text⟩

/-- The readings at which one text is accepted lie within the lifetime. -/
theorem accepted_within {auth : RemoteAudioSessionAuth} {presented : String} {t t' : ℚ} {r r' : ℤ}
    (h : auth.remainingSeconds t (some presented) = some r)
    (h' : auth.remainingSeconds t' (some presented) = some r') :
    pyInt t' - pyInt t < auth.ttlSeconds ∧ (0 ≤ t → t' - t < auth.ttlSeconds) := by
  obtain ⟨expires, nonce, haccepted⟩ := exists_accepted h
  obtain ⟨expires', nonce', haccepted'⟩ := exists_accepted h'
  have hpayload := (append_last_mark_inj (dot_notMem_signature _ _) (dot_notMem_signature _ _)
    (haccepted.text.symm.trans haccepted'.text)).1
  obtain ⟨rfl, -⟩ := payloadOf_inj (dot_notMem_of_isDigits haccepted.digits)
    (dot_notMem_of_isDigits haccepted'.digits) hpayload
  have hbound : pyInt t' + 1 ≤ pyInt t + auth.ttlSeconds := by
    have hle := haccepted.le
    have hpos := haccepted'.pos
    have hr := haccepted.remaining
    have hr' := haccepted'.remaining
    omega
  refine ⟨by omega, fun ht => ?_⟩
  have hboundQ : (pyInt t' : ℚ) + 1 ≤ pyInt t + auth.ttlSeconds := by exact_mod_cast hbound
  have hbelow := (pyInt_spec t).2 ht
  have habove := (pyInt_spec t').1
  linarith

end RemoteAudioSessionAuth

/-- A request is let in for the token of the service, or for a session cookie. -/
theorem authorizeRemoteAudio_eq_ok {authorization expectedToken : String} {cookie : Option String}
    {sessionAuth : Option RemoteAudioSessionAuth} {clock : ℚ}
    (h : authorizeRemoteAudio authorization cookie expectedToken sessionAuth clock = .ok ()) :
    (∃ scheme, authorization.toList = scheme ++ ' ' :: expectedToken.toList) ∨
      ∃ auth ∈ sessionAuth, ∃ r, auth.remainingSeconds clock cookie = some r := by
  simp only [authorizeRemoteAudio] at h
  obtain ⟨authorized, hbearer, h⟩ := bind_eq_ok.mp h
  split_ifs at h with hin
  rcases hin with rfl | hsession
  · refine Or.inl ?_
    split_ifs at hbearer with hform
    · simp only [compareDigest] at hbearer
      split_ifs at hbearer
      have hsupplied := of_decide_eq_true (Except.ok.inj hbearer)
      obtain ⟨scheme, supplied, htext, hscheme⟩ := List.eq_append_cons_of_mem hform.1
      refine ⟨scheme, ?_⟩
      rw [htext, List.dropWhile_append_of_pos, List.dropWhile_cons_of_neg] at hsupplied
      · rw [htext, ← hsupplied]
        rfl
      · simp
      · intro c hc
        rw [decide_eq_true_eq]
        rintro rfl
        exact hscheme hc
    · cases hbearer
  · obtain ⟨auth, hauth, hremaining⟩ := (Option.any_eq_true _ _).mp hsession
    exact Or.inr ⟨auth, hauth, Option.isSome_iff_exists.mp hremaining⟩

/-- **Audio session cookies.** An issued cookie is accepted exactly while its lifetime lasts, by
the readings of the clock without their fraction, and unless its expiry lies before the epoch. A
text that is accepted is a signed payload with its signature. An edit of an issued cookie is not
accepted, nor is the cookie under another secret, unless two digests collide. No text is accepted
for longer than the lifetime. -/
theorem cookies_sound {auth : RemoteAudioSessionAuth}
    {suppliedLoginToken nonce cookie : String} {t₀ : ℚ}
    (h : auth.issueCookie suppliedLoginToken t₀ nonce = .ok cookie) (hnonce : '.' ∉ nonce.toList)
    (hlength : cookie.length ≤ 512) :
    (∀ t r, auth.remainingSeconds t (some cookie) = some r ↔
      r = pyInt t₀ + auth.ttlSeconds - pyInt t ∧ 0 < r ∧ r ≤ auth.ttlSeconds ∧
        0 ≤ pyInt t₀ + auth.ttlSeconds) ∧
    (∀ t r, 0 ≤ t₀ → 0 ≤ t → (auth.remainingSeconds t (some cookie) = some r ↔
      r = ⌊t₀⌋ + auth.ttlSeconds - ⌊t⌋ ∧ 0 < r ∧ r ≤ auth.ttlSeconds)) ∧
    (∀ signed presented t r, Unforged auth signed presented →
      auth.remainingSeconds t (some presented) = some r →
        ∃ expires fields, payloadOf expires fields ∈ signed ∧ '.' ∉ expires ∧ '.' ∉ fields ∧
          presented.toList =
            payloadOf expires fields ++ '.' :: auth.signature (payloadOf expires fields)) ∧
    (∀ edited t, Edit cookie.toList edited.toList →
      (∀ payload tag, '.' ∉ tag → edited.toList = payload ++ '.' :: tag →
        Distinguishes auth.signingSecret auth.signingSecret (auth.payload t₀ nonce) payload) →
      auth.remainingSeconds t (some edited) = none) ∧
    (∀ (other : RemoteAudioSessionAuth) t, other.signingSecret ≠ auth.signingSecret →
      Distinguishes other.signingSecret auth.signingSecret (auth.payload t₀ nonce)
        (auth.payload t₀ nonce) →
      other.remainingSeconds t (some cookie) = none) ∧
    ∀ presented t t' r r', auth.remainingSeconds t (some presented) = some r →
      auth.remainingSeconds t' (some presented) = some r' →
        pyInt t' - pyInt t < auth.ttlSeconds ∧ (0 ≤ t → t' - t < auth.ttlSeconds) := by
  refine ⟨?_, ?_, ?_, ?_, ?_, ?_⟩
  · intro t r
    exact RemoteAudioSessionAuth.remaining_issued_iff h hnonce hlength
  · intro t r ht₀ ht
    exact RemoteAudioSessionAuth.remaining_issued_floor_iff h hnonce hlength ht₀ ht
  · intro signed presented t r hunforged haccepted
    exact RemoteAudioSessionAuth.signed_of_accepted hunforged haccepted
  · intro edited t hedit hd
    exact RemoteAudioSessionAuth.remaining_edited h hnonce hedit hd t
  · intro other t hother hd
    exact RemoteAudioSessionAuth.remaining_other h hother hd t
  · intro presented t t' r r' haccepted haccepted'
    exact RemoteAudioSessionAuth.accepted_within haccepted haccepted'

/-- A service with cookies of one minute. -/
def minuteAuth : RemoteAudioSessionAuth where
  loginToken := "login-aaaaaaaaaaaaaaaaaaaaaaaaaaaaaaaa"
  signingSecret := encodeAscii "sign-bbbbbbbbbbbbbbbbbbbbbbbbbbbbbbbb".toList
  ttlSeconds := 60
  cookieSecure := true

theorem exists_minuteCookie {clock : ℚ} {second : ℤ} (hclock : pyInt clock = second)
    (hascii : isAscii (payloadOf (decimal (second + 60)) "nonce".toList) = true)
    (hlength : (payloadOf (decimal (second + 60)) "nonce".toList).length ≤ 467) :
    ∃ cookie, minuteAuth.issueCookie minuteAuth.loginToken clock "nonce" = .ok cookie ∧
      cookie.length ≤ 512 := by
  rw [← hclock, show (60 : ℤ) = minuteAuth.ttlSeconds from rfl, ← payload_eq] at hascii hlength
  exact RemoteAudioSessionAuth.exists_issueCookie (by decide) hascii hlength

theorem cookies_sound_minute :
    ∃ cookie edited, minuteAuth.issueCookie minuteAuth.loginToken (2001 / 2) "nonce" = .ok cookie ∧
      minuteAuth.remainingSeconds (1059 + 9 / 10) (some cookie) = some 1 ∧
      minuteAuth.remainingSeconds 1060 (some cookie) = none ∧
      edited = cookie ++ "A" ∧ minuteAuth.remainingSeconds 1001 (some edited) = none := by
  obtain ⟨cookie, hcookie, hlength⟩ := @exists_minuteCookie (2001 / 2) 1000 (by norm_num [pyInt])
    (by decide) (by decide)
  obtain ⟨haccepted, hfloor, -, hedited, -, -⟩ := cookies_sound hcookie (by decide) hlength
  refine ⟨cookie, cookie ++ "A", hcookie, ?_, ?_, rfl, ?_⟩
  · rw [hfloor _ _ (by norm_num) (by norm_num)]
    norm_num [minuteAuth]
  · rw [Option.eq_none_iff_forall_ne_some]
    intro r hr
    rw [hfloor _ _ (by norm_num) (by norm_num)] at hr
    norm_num [minuteAuth] at hr
    omega
  · obtain ⟨-, htext⟩ := RemoteAudioSessionAuth.issueCookie_eq_ok hcookie
    apply hedited
    · exact ⟨cookie.toList, [], ['A'], [], by simp, by simp, by simp, by simp, by simp⟩
    · -- The payload is the one that was issued.
      intro payload tag htag hcut _
      rw [String.toList_append, htext, List.append_assoc, List.cons_append] at hcut
      refine ⟨rfl, (append_last_mark_inj ?_ htag hcut).1⟩
      rw [List.mem_append, not_or]
      exact ⟨dot_notMem_signature _ _, by decide⟩

/-- A clock before the epoch is rounded up: a second is left that a floor would not leave. -/
theorem negative_clock_accepted :
    ∃ cookie, minuteAuth.issueCookie minuteAuth.loginToken (-1 / 2) "nonce" = .ok cookie ∧
      cookie.length ≤ 512 ∧ minuteAuth.remainingSeconds 0 (some cookie) = some 60 ∧
      (60 : ℤ) ≠ ⌊(-1 / 2 : ℚ)⌋ + minuteAuth.ttlSeconds - ⌊(0 : ℚ)⌋ := by
  obtain ⟨cookie, hcookie, hlength⟩ := @exists_minuteCookie (-1 / 2) 0 (by norm_num [pyInt])
    (by decide) (by decide)
  refine ⟨cookie, hcookie, hlength, ?_, by norm_num [minuteAuth]⟩
  rw [RemoteAudioSessionAuth.remaining_issued_iff hcookie (by decide) hlength]
  norm_num [minuteAuth, pyInt]

end VoxBench.ControlPlane
