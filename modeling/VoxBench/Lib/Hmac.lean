import VoxBench.Lib.Base64
import VoxBench.Lib.Sha256
import Mathlib.Data.List.TakeWhile

/-!
# HMAC-SHA-256 and its text

The keyed digest of a message as bytes, and the text of some bytes in the alphabet for URLs with
the padding taken away. Digests have one length, so that no padding is missed.

## Main definitions

* `Hmac.digest` — `hmac.new(key, message, hashlib.sha256).digest()`.
* `Hmac.urlsafe` — `base64.urlsafe_b64encode(…).rstrip(b"=")`.

## Main results

* `Hmac.urlsafe_inj` — texts of bytes of one length.
* `Hmac.mem_urlsafe` — the characters of a text.
-/

namespace VoxBench.Lib.Hmac

/-! ## Digests -/

/-- The bytes of a word, the highest first. -/
def wordBytes (word : ℕ) : List UInt8 :=
  (List.range 4).map fun i => UInt8.ofNat (word >>> (8 * (3 - i)))

/-- `hashlib.sha256(message).digest()`. -/
def sha256 (message : List UInt8) : List UInt8 := (Sha256.digest message).flatMap wordBytes

/-- The key as a block of 64 bytes. -/
def blockKey (key : List UInt8) : List UInt8 :=
  let short := if key.length > 64 then sha256 key else key
  short ++ List.replicate (64 - short.length) 0

def digest (key message : List UInt8) : List UInt8 :=
  let block := blockKey key
  sha256 (block.map (· ^^^ 0x5c) ++ sha256 (block.map (· ^^^ 0x36) ++ message))

theorem length_round (state : List ℕ) (constant word : ℕ) :
    (Sha256.round state constant word).length = state.length := by
  simp only [Sha256.round]
  split <;> rfl

theorem length_compress (state block : List ℕ) :
    (Sha256.compress state block).length = state.length := by
  have hrounds : ∀ (rounds : List (ℕ × ℕ)) (s : List ℕ),
      (rounds.foldl (fun s kw => Sha256.round s kw.1 kw.2) s).length = s.length := by
    intro rounds
    induction rounds with
    | nil => exact fun s => rfl
    | cons kw rounds ih =>
        intro s
        rw [List.foldl_cons, ih, length_round]
  rw [Sha256.compress, List.length_zipWith, hrounds, Nat.min_self]

theorem length_run (fuel : ℕ) (state message : List ℕ) :
    (Sha256.run fuel state message).length = state.length := by
  induction fuel generalizing state message with
  | zero => rfl
  | succ fuel ih =>
      cases message with
      | nil => rfl
      | cons word message => rw [Sha256.run, ih, length_compress]; exact List.cons_ne_nil _ _

theorem length_sha256 (message : List UInt8) : (sha256 message).length = 32 := by
  have hwords : (Sha256.digest message).length = 8 := by
    rw [Sha256.digest, length_run]
    rfl
  rw [sha256, List.length_flatMap]
  simp only [wordBytes, List.length_map, List.length_range, List.map_const', List.sum_replicate_nat,
    hwords]

/-- Every digest has 32 bytes. -/
theorem length_digest (key message : List UInt8) : (digest key message).length = 32 :=
  length_sha256 _

example : digest ("Jefe".toList.map fun c => UInt8.ofNat c.toNat)
    ("what do ya want for nothing?".toList.map fun c => UInt8.ofNat c.toNat) =
    [0x5b, 0xdc, 0xc1, 0x46, 0xbf, 0x60, 0x75, 0x4e, 0x6a, 0x04, 0x24, 0x26, 0x08, 0x95, 0x75,
      0xc7, 0x5a, 0x00, 0x3f, 0x08, 0x9d, 0x27, 0x39, 0x83, 0x9d, 0xec, 0x58, 0xb9, 0x64, 0xec,
      0x38, 0x43] := by
  decide +kernel

/-! ## Texts -/

/-- A character in the alphabet for URLs. -/
def urlsafeChar (c : Char) : Char := if c = '+' then '-' else if c = '/' then '_' else c

/-- The character that it stands for. -/
def standardChar (c : Char) : Char := if c = '-' then '+' else if c = '_' then '/' else c

def urlsafe (bytes : List UInt8) : List Char :=
  (((Base64.encodeChars bytes).map urlsafeChar).reverse.dropWhile (· = '=')).reverse

theorem mem_encodeChars {bytes : List UInt8} {c : Char} (h : c ∈ Base64.encodeChars bytes) :
    c = '=' ∨ ∃ n < 64, c = Base64.encodeChar n := by
  induction bytes using Base64.encodeChars.induct with
  | case1 => simp [Base64.encodeChars] at h
  | case2 a =>
      have ha := a.toNat_lt
      simp only [Base64.encodeChars, List.mem_cons, List.not_mem_nil, or_false] at h
      rcases h with rfl | rfl | rfl | rfl
      · exact Or.inr ⟨_, by omega, rfl⟩
      · exact Or.inr ⟨_, by omega, rfl⟩
      · exact Or.inl rfl
      · exact Or.inl rfl
  | case3 a b =>
      have ha := a.toNat_lt
      have hb := b.toNat_lt
      simp only [Base64.encodeChars, List.mem_cons, List.not_mem_nil, or_false] at h
      rcases h with rfl | rfl | rfl | rfl
      · exact Or.inr ⟨_, by omega, rfl⟩
      · exact Or.inr ⟨_, by omega, rfl⟩
      · exact Or.inr ⟨_, by omega, rfl⟩
      · exact Or.inl rfl
  | case4 a b d rest ih =>
      have ha := a.toNat_lt
      have hb := b.toNat_lt
      have hd := d.toNat_lt
      simp only [Base64.encodeChars, List.mem_cons] at h
      rcases h with rfl | rfl | rfl | rfl | h
      · exact Or.inr ⟨_, by omega, rfl⟩
      · exact Or.inr ⟨_, by omega, rfl⟩
      · exact Or.inr ⟨_, by omega, rfl⟩
      · exact Or.inr ⟨_, by omega, rfl⟩
      · exact ih h

/-- The characters of a text are plain ASCII, and no dots. -/
theorem mem_urlsafe {bytes : List UInt8} {c : Char} (h : c ∈ urlsafe bytes) :
    c ≠ '.' ∧ c.toNat < 128 := by
  have hall : ∀ n : Fin 64, urlsafeChar (Base64.encodeChar n) ≠ '.' ∧
      (urlsafeChar (Base64.encodeChar n)).toNat < 128 := by
    decide
  rw [urlsafe, List.mem_reverse] at h
  have hmem := (List.dropWhile_sublist _).subset h
  rw [List.mem_reverse, List.mem_map] at hmem
  obtain ⟨d, hd, rfl⟩ := hmem
  rcases mem_encodeChars hd with rfl | ⟨n, hn, rfl⟩
  · decide
  · exact hall ⟨n, hn⟩

theorem length_urlsafe_le (bytes : List UInt8) :
    (urlsafe bytes).length ≤ (bytes.length + 2) / 3 * 4 := by
  have hencode := Base64.length_encode bytes
  rw [Base64.encode, String.length_ofList] at hencode
  have hsuffix := (List.dropWhile_suffix (fun c => decide (c = '='))
    (l := ((Base64.encodeChars bytes).map urlsafeChar).reverse)).length_le
  simp only [List.length_reverse, List.length_map, hencode] at hsuffix
  rw [urlsafe, List.length_reverse]
  exact hsuffix

/-- The alphabet for URLs loses nothing. -/
theorem map_standardChar (bytes : List UInt8) :
    ((Base64.encodeChars bytes).map urlsafeChar).map standardChar = Base64.encodeChars bytes := by
  have hall : ∀ n : Fin 64, standardChar (urlsafeChar (Base64.encodeChar n)) =
      Base64.encodeChar n := by
    decide
  rw [List.map_map]
  refine (List.map_congr_left fun c hc => ?_).trans (List.map_id _)
  rcases mem_encodeChars hc with rfl | ⟨n, hn, rfl⟩
  · decide
  · exact hall ⟨n, hn⟩

/-- What was taken away at the end was padding. -/
theorem urlsafe_append (bytes : List UInt8) :
    urlsafe bytes ++ List.replicate
      ((Base64.encodeChars bytes).length - (urlsafe bytes).length) '=' =
      (Base64.encodeChars bytes).map urlsafeChar := by
  set text := ((Base64.encodeChars bytes).map urlsafeChar).reverse with htext
  have hsplit : text.takeWhile (· = '=') ++ text.dropWhile (· = '=') = text :=
    List.takeWhile_append_dropWhile
  have hpads : text.takeWhile (· = '=') =
      List.replicate (text.takeWhile (· = '=')).length '=' := by
    rw [List.eq_replicate_iff]
    exact ⟨rfl, fun c hc => by simpa using List.mem_takeWhile_imp hc⟩
  have hlength : (Base64.encodeChars bytes).length - (urlsafe bytes).length =
      (text.takeWhile (· = '=')).length := by
    have h := congrArg List.length hsplit
    simp only [List.length_append, htext, List.length_reverse, List.length_map] at h
    simp only [urlsafe, List.length_reverse, htext]
    omega
  rw [hlength, ← List.reverse_inj, List.reverse_append, List.reverse_replicate, ← hpads,
    ← htext, urlsafe, List.reverse_reverse]
  exact hsplit

theorem urlsafe_inj {bytes bytes' : List UInt8} (hlength : bytes.length = bytes'.length)
    (h : urlsafe bytes = urlsafe bytes') : bytes = bytes' := by
  have hchars : (Base64.encodeChars bytes).length = (Base64.encodeChars bytes').length := by
    have hlen := Base64.length_encode bytes
    have hlen' := Base64.length_encode bytes'
    rw [Base64.encode, String.length_ofList] at hlen hlen'
    rw [hlen, hlen', hlength]
  have hmap : (Base64.encodeChars bytes).map urlsafeChar =
      (Base64.encodeChars bytes').map urlsafeChar := by
    rw [← urlsafe_append, ← urlsafe_append, h, hchars]
  have hencode : Base64.encodeChars bytes = Base64.encodeChars bytes' := by
    rw [← map_standardChar bytes, hmap, map_standardChar]
  have hdecode := congrArg Base64.decodeChars hencode
  rw [Base64.decodeChars_encodeChars, Base64.decodeChars_encodeChars] at hdecode
  exact Option.some.inj hdecode

end VoxBench.Lib.Hmac
