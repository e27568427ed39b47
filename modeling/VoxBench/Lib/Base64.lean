import Mathlib.Data.List.Basic

/-!
# Base64

The standard alphabet with padding, as `base64.b64encode` writes it and as
`base64.b64decode(…, validate=True)` reads it: only alphabet characters, padding only
at the end and only to complete the last group of four. Unused bits of the last group
are not checked.
-/

namespace VoxBench.Lib.Base64

/-- The character of a six-bit value. -/
def encodeChar (n : ℕ) : Char :=
  if n < 26 then Char.ofNat (65 + n)
  else if n < 52 then Char.ofNat (97 + (n - 26))
  else if n < 62 then Char.ofNat (48 + (n - 52))
  else if n = 62 then '+'
  else '/'

/-- The six-bit value of a character of the alphabet. -/
def value? (c : Char) : Option ℕ :=
  if 65 ≤ c.toNat ∧ c.toNat ≤ 90 then some (c.toNat - 65)
  else if 97 ≤ c.toNat ∧ c.toNat ≤ 122 then some (c.toNat - 97 + 26)
  else if 48 ≤ c.toNat ∧ c.toNat ≤ 57 then some (c.toNat - 48 + 52)
  else if c = '+' then some 62
  else if c = '/' then some 63
  else none

/-- `base64.b64encode`. -/
def encodeChars : List UInt8 → List Char
  | [] => []
  | [a] => [encodeChar (a.toNat / 4), encodeChar (a.toNat % 4 * 16), '=', '=']
  | [a, b] =>
      [encodeChar (a.toNat / 4), encodeChar (a.toNat % 4 * 16 + b.toNat / 16),
        encodeChar (b.toNat % 16 * 4), '=']
  | a :: b :: c :: rest =>
      encodeChar (a.toNat / 4) :: encodeChar (a.toNat % 4 * 16 + b.toNat / 16) ::
        encodeChar (b.toNat % 16 * 4 + c.toNat / 64) :: encodeChar (c.toNat % 64) ::
        encodeChars rest

/-- `base64.b64decode` in strict mode; `none` stands for its exception. -/
def decodeChars : List Char → Option (List UInt8)
  | [] => some []
  | c₁ :: c₂ :: c₃ :: c₄ :: rest => do
      let v₁ ← value? c₁
      let v₂ ← value? c₂
      if c₄ = '=' then
        if rest ≠ [] then none
        else if c₃ = '=' then some [UInt8.ofNat (v₁ * 4 + v₂ / 16)]
        else do
          let v₃ ← value? c₃
          some [UInt8.ofNat (v₁ * 4 + v₂ / 16), UInt8.ofNat (v₂ % 16 * 16 + v₃ / 4)]
      else do
        let v₃ ← value? c₃
        let v₄ ← value? c₄
        let bytes ← decodeChars rest
        some (UInt8.ofNat (v₁ * 4 + v₂ / 16) :: UInt8.ofNat (v₂ % 16 * 16 + v₃ / 4) ::
          UInt8.ofNat (v₃ % 4 * 64 + v₄) :: bytes)
  | _ => none

def encode (bytes : List UInt8) : String := String.ofList (encodeChars bytes)

def decode (text : String) : Option (List UInt8) := decodeChars text.toList

theorem value?_encodeChar {n : ℕ} (h : n < 64) : value? (encodeChar n) = some n := by
  have hall : ∀ m : Fin 64, value? (encodeChar m) = some m.val := by decide
  exact hall ⟨n, h⟩

theorem encodeChar_ne_pad {n : ℕ} (h : n < 64) : encodeChar n ≠ '=' := by
  have hall : ∀ m : Fin 64, encodeChar m ≠ '=' := by decide
  exact hall ⟨n, h⟩

theorem ofNat_eq {a : UInt8} {n : ℕ} (h : n = a.toNat) : UInt8.ofNat n = a := by
  rw [h, UInt8.ofNat_toNat]

/-- What was encoded is decoded. -/
theorem decodeChars_encodeChars (bytes : List UInt8) :
    decodeChars (encodeChars bytes) = some bytes := by
  induction bytes using encodeChars.induct with
  | case1 => rfl
  | case2 a =>
      have ha := a.toNat_lt
      have hbyte : UInt8.ofNat (a.toNat / 4 * 4 + a.toNat % 4 * 16 / 16) = a :=
        ofNat_eq (by omega)
      simp only [encodeChars, decodeChars]
      rw [value?_encodeChar (by omega), value?_encodeChar (by omega)]
      simp only [Option.bind_eq_bind, Option.bind_some, if_true, ne_eq, not_true_eq_false, if_false,
        hbyte]
  | case3 a b =>
      have ha := a.toNat_lt
      have hb := b.toNat_lt
      have hpad := encodeChar_ne_pad (n := b.toNat % 16 * 4) (by omega)
      have h₁ : UInt8.ofNat (a.toNat / 4 * 4 + (a.toNat % 4 * 16 + b.toNat / 16) / 16) = a :=
        ofNat_eq (by omega)
      have h₂ : UInt8.ofNat ((a.toNat % 4 * 16 + b.toNat / 16) % 16 * 16 + b.toNat % 16 * 4 / 4) =
          b := ofNat_eq (by omega)
      simp only [encodeChars, decodeChars]
      rw [value?_encodeChar (by omega), value?_encodeChar (by omega),
        value?_encodeChar (n := b.toNat % 16 * 4) (by omega)]
      simp only [Option.bind_eq_bind, Option.bind_some, if_true, ne_eq, not_true_eq_false, if_false,
        hpad, h₁, h₂]
  | case4 a b c rest ih =>
      have ha := a.toNat_lt
      have hb := b.toNat_lt
      have hc := c.toNat_lt
      have hpad := encodeChar_ne_pad (n := c.toNat % 64) (by omega)
      have h₁ : UInt8.ofNat (a.toNat / 4 * 4 + (a.toNat % 4 * 16 + b.toNat / 16) / 16) = a :=
        ofNat_eq (by omega)
      have h₂ : UInt8.ofNat ((a.toNat % 4 * 16 + b.toNat / 16) % 16 * 16 +
          (b.toNat % 16 * 4 + c.toNat / 64) / 4) = b := ofNat_eq (by omega)
      have h₃ : UInt8.ofNat ((b.toNat % 16 * 4 + c.toNat / 64) % 4 * 64 + c.toNat % 64) = c :=
        ofNat_eq (by omega)
      simp only [encodeChars, decodeChars]
      rw [value?_encodeChar (by omega), value?_encodeChar (by omega),
        value?_encodeChar (n := b.toNat % 16 * 4 + c.toNat / 64) (by omega),
        value?_encodeChar (n := c.toNat % 64) (by omega), ih]
      simp only [Option.bind_eq_bind, Option.bind_some, if_false, hpad, h₁, h₂, h₃]

@[simp] theorem decode_encode (bytes : List UInt8) : decode (encode bytes) = some bytes := by
  rw [decode, encode, String.toList_ofList, decodeChars_encodeChars]

/-- Four characters for every three bytes begun. -/
theorem length_encode (bytes : List UInt8) :
    (encode bytes).length = (bytes.length + 2) / 3 * 4 := by
  have hchars : (encodeChars bytes).length = (bytes.length + 2) / 3 * 4 := by
    induction bytes using encodeChars.induct with
    | case1 => rfl
    | case2 a => simp [encodeChars]
    | case3 a b => simp [encodeChars]
    | case4 a b c rest ih =>
        simp only [encodeChars, List.length_cons, ih]
        omega
  rw [← hchars, encode, String.length_ofList]

end VoxBench.Lib.Base64
