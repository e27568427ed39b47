import VoxBench.Lib.Delimited
import VoxBench.Lib.Text
import VoxBench.Lib.Utf8
import VoxBench.Registry.Reproducible

/-!
# The canonical text of a document

`canonical_json` forgets the order of the keys, at every depth, and nothing else: the text of a
document with sorted keys can be read back from its start, whatever follows it. So two resolved
configs have one hash exactly when they are the same document up to the order of keys, as long
as the digests of their texts do not collide. The sign of a zero is part of the document:
`-0.0` equals `0.0` and has a text of its own.

## Main definitions

* `Json.Reordered` — the same document, but for the order of keys.
* `NumberText` — what is asked of the printing of floats.

## Main results

* `Json.sortKeys_eq_iff` — sorting keys decides `Reordered`.
* `Json.render_injective` — texts can be read back.
* `canonical_identifies` — canonical texts, and hashes of resolved configs.
* `negZero_told_apart` — configs of equal numbers with different hashes.
-/

namespace VoxBench.ControlPlane.Json

open VoxBench.Lib

/-! ## The order of keys -/

/-- The same document, but for the order of the keys of its objects, at any depth. -/
inductive Reordered : Json → Json → Prop
  | refl (a : Json) : Reordered a a
  | trans {a b c : Json} : Reordered a b → Reordered b c → Reordered a c
  | keys {fields fields' : List (String × Json)} : fields.Perm fields' →
      Reordered (.obj fields) (.obj fields')
  | item {a b : Json} (before after : List Json) : Reordered a b →
      Reordered (.arr (before ++ a :: after)) (.arr (before ++ b :: after))
  | value {a b : Json} (key : String) (before after : List (String × Json)) : Reordered a b →
      Reordered (.obj (before ++ (key, a) :: after)) (.obj (before ++ (key, b) :: after))

theorem Reordered.symm {a b : Json} (h : Reordered a b) : Reordered b a := by
  induction h with
  | refl a => exact .refl a
  | trans _ _ hab hbc => exact hbc.trans hab
  | keys hperm => exact .keys hperm.symm
  | item before after _ ih => exact .item before after ih
  | value key before after _ ih => exact .value key before after ih

mutual

/-- Sorting the keys reorders them. -/
theorem reordered_sortKeys : ∀ a : Json, Reordered a (sortKeys a)
  | .null | .bool _ | .int _ | .float _ | .negZero | .str _ => by
      simp only [sortKeys]
      exact .refl _
  | .arr items => by
      rw [sortKeys]
      exact reordered_sortItems items []
  | .obj fields => by
      rw [sortKeys]
      exact (reordered_sortFields fields []).trans (.keys (List.perm_insertionSort _ _).symm)

theorem reordered_sortItems : ∀ (items before : List Json),
    Reordered (.arr (before ++ items)) (.arr (before ++ sortItems items))
  | [], before => by
      rw [sortItems]
      exact .refl _
  | item :: items, before => by
      have hrest := reordered_sortItems items (before ++ [sortKeys item])
      simp only [List.append_assoc, List.singleton_append] at hrest
      rw [sortItems]
      exact (Reordered.item before items (reordered_sortKeys item)).trans hrest

theorem reordered_sortFields : ∀ (fields before : List (String × Json)),
    Reordered (.obj (before ++ fields)) (.obj (before ++ sortFields fields))
  | [], before => by
      rw [sortFields]
      exact .refl _
  | (key, value) :: fields, before => by
      have hrest := reordered_sortFields fields (before ++ [(key, sortKeys value)])
      simp only [List.append_assoc, List.singleton_append] at hrest
      rw [sortFields]
      exact (Reordered.value key before fields (reordered_sortKeys value)).trans hrest

end

/-- Reordered documents have the same sorted form. -/
theorem Reordered.sortKeys_eq {a b : Json} (h : Reordered a b) (ha : a.keyed) :
    b.keyed ∧ sortKeys a = sortKeys b := by
  induction h with
  | refl a => exact ⟨ha, rfl⟩
  | trans _ _ ihab ihbc =>
      obtain ⟨hb, hab⟩ := ihab ha
      obtain ⟨hc, hbc⟩ := ihbc hb
      exact ⟨hc, hab.trans hbc⟩
  | keys hperm =>
      obtain ⟨hkeys, hvalues⟩ := keyed_obj_iff.mp ha
      refine ⟨keyed_obj_iff.mpr ⟨(hperm.map Prod.fst).nodup_iff.mp hkeys, ?_⟩,
        sortKeys_obj_of_perm hkeys hperm⟩
      intro f hf
      exact hvalues f (hperm.mem_iff.mpr hf)
  | @item a b before after _ ih =>
      rw [keyed, keyedItems_iff] at ha
      obtain ⟨hb, hab⟩ := ih (ha a (by simp))
      constructor
      · rw [keyed, keyedItems_iff]
        intro x hx
        rcases List.mem_append.mp hx with hx | hx
        · exact ha x (List.mem_append_left _ hx)
        · rcases List.mem_cons.mp hx with rfl | hx
          · exact hb
          · exact ha x (List.mem_append_right _ (List.mem_cons_of_mem a hx))
      · rw [sortKeys, sortKeys, sortItems_eq_map, sortItems_eq_map]
        simp only [List.map_append, List.map_cons, hab]
  | @value a b key before after _ ih =>
      obtain ⟨hkeys, hvalues⟩ := keyed_obj_iff.mp ha
      obtain ⟨hb, hab⟩ := ih (hvalues (key, a) (by simp))
      constructor
      · refine keyed_obj_iff.mpr ⟨?_, ?_⟩
        · simpa only [Dict.keys, List.map_append, List.map_cons] using hkeys
        · intro f hf
          rcases List.mem_append.mp hf with hf | hf
          · exact hvalues f (List.mem_append_left _ hf)
          · rcases List.mem_cons.mp hf with rfl | hf
            · exact hb
            · exact hvalues f (List.mem_append_right _ (List.mem_cons_of_mem (key, a) hf))
      · rw [sortKeys, sortKeys, sortFields_eq_map, sortFields_eq_map]
        simp only [List.map_append, List.map_cons, hab]

theorem sortKeys_eq_iff {a b : Json} (ha : a.keyed) :
    sortKeys a = sortKeys b ↔ Reordered a b := by
  constructor
  · intro h
    exact (reordered_sortKeys a).trans (h ▸ (reordered_sortKeys b).symm)
  · intro h
    exact (h.sortKeys_eq ha).2

/-! ## Strings -/

/-- The character of an escape that is no code point. -/
def namedEscape (c : Char) : Char :=
  if c = 'n' then '\n' else if c = 'r' then '\r' else if c = 't' then '\t'
  else if c = 'b' then '\x08' else if c = 'f' then '\x0c' else c

/-- The value of a lower-case hexadecimal digit. -/
def hexLower (c : Char) : ℕ := if c.toNat < 97 then c.toNat - 48 else c.toNat - 87

/-- The first character of the body of a string, and the rest. -/
def unescape : List Char → Option (Char × List Char)
  | [] => none
  | c :: rest =>
      if c ≠ '\\' then some (c, rest)
      else
        match rest with
        | 'u' :: _ :: _ :: high :: low :: rest =>
            some (Char.ofNat (16 * hexLower high + hexLower low), rest)
        | c :: rest => some (namedEscape c, rest)
        | [] => none

/-- The body of a string, between its quotes. -/
def bodyText (cs : List Char) : List Char := cs.flatMap fun c => (escapeChar c).toList

theorem toList_controlEscape (n : ℕ) :
    ("\\u00" ++ String.ofList [Nat.digitChar (n / 16), Nat.digitChar (n % 16)]).toList =
      ['\\', 'u', '0', '0', Nat.digitChar (n / 16), Nat.digitChar (n % 16)] := by
  simp only [String.toList_append, String.toList_ofList]
  rfl

theorem unescape_escapeChar (c : Char) (rest : List Char) :
    unescape ((escapeChar c).toList ++ rest) = some (c, rest) := by
  simp only [escapeChar]
  split_ifs with h₁ h₂ h₃ h₄ h₅ h₆ h₇ h₈
  · subst h₁
    rfl
  · subst h₂
    rfl
  · subst h₃
    rfl
  · subst h₄
    rfl
  · subst h₅
    rfl
  · subst h₆
    rfl
  · subst h₇
    rfl
  · have hvalue : ∀ n < 32, 16 * hexLower (Nat.digitChar (n / 16)) +
        hexLower (Nat.digitChar (n % 16)) = n := by
      decide
    have hdecoded := hvalue c.toNat h₈
    rw [toList_controlEscape]
    simp only [List.cons_append, List.nil_append, unescape, ne_eq, not_true_eq_false, if_false,
      hdecoded, Char.ofNat_toNat]
  · simp only [String.toList_singleton, List.singleton_append, unescape, ne_eq, h₂,
      not_false_eq_true, if_true]

/-- An escape is not empty, and no quote begins it. -/
theorem exists_escapeChar (c : Char) :
    ∃ first rest, (escapeChar c).toList = first :: rest ∧ first ≠ '"' := by
  simp only [escapeChar]
  split_ifs with h₁ h₂ h₃ h₄ h₅ h₆ h₇ h₈
  on_goal 9 => exact ⟨c, [], String.toList_singleton c, h₁⟩
  on_goal 8 => exact ⟨'\\', _, toList_controlEscape c.toNat, by decide⟩
  all_goals exact ⟨'\\', _, rfl, by decide⟩

/-- A body ends at its quote. -/
theorem bodyText_append_inj {cs ds rest rest' : List Char}
    (h : bodyText cs ++ '"' :: rest = bodyText ds ++ '"' :: rest') : cs = ds ∧ rest = rest' := by
  induction cs generalizing ds with
  | nil =>
      cases ds with
      | nil => exact ⟨rfl, (List.cons.inj h).2⟩
      | cons d ds =>
          obtain ⟨first, tail, hescape, hne⟩ := exists_escapeChar d
          simp only [bodyText, List.flatMap_nil, List.flatMap_cons, hescape] at h
          exact absurd (List.cons.inj h).1.symm hne
  | cons c cs ih =>
      cases ds with
      | nil =>
          obtain ⟨first, tail, hescape, hne⟩ := exists_escapeChar c
          simp only [bodyText, List.flatMap_nil, List.flatMap_cons, hescape] at h
          exact absurd (List.cons.inj h).1 hne
      | cons d ds =>
          simp only [bodyText, List.flatMap_cons, List.append_assoc] at h
          have hread := congrArg unescape h
          rw [unescape_escapeChar, unescape_escapeChar, Option.some.injEq, Prod.mk.injEq] at hread
          obtain ⟨rfl, htail⟩ := hread
          obtain ⟨rfl, hrest⟩ := ih htail
          exact ⟨rfl, hrest⟩

theorem toList_quote (s : String) : (quote s).toList = '"' :: (bodyText s.toList ++ ['"']) := by
  have hquote : "\"".toList = ['"'] := by decide
  rw [quote, String.toList_append, String.toList_append, String.toList_join, List.flatMap_map,
    hquote, bodyText]
  rfl

/-- A string is read back from the start of a text. -/
theorem quote_append_inj {s t : String} {rest rest' : List Char}
    (h : (quote s).toList ++ rest = (quote t).toList ++ rest') : s = t ∧ rest = rest' := by
  rw [toList_quote, toList_quote] at h
  simp only [List.cons_append, List.append_assoc, List.nil_append, List.cons.injEq, true_and] at h
  obtain ⟨hchars, hrest⟩ := bodyText_append_inj h
  exact ⟨String.toList_injective hchars, hrest⟩

/-! ## Numbers -/

/-- A character of the text of a number. -/
def isNumberChar (c : Char) : Bool := c.isDigit || c ∈ ['-', '+', '.', 'e']

/-- What is asked of the printing of floats: different floats have different texts, none that of
the negative zero, which can be told from the texts of integers. -/
structure NumberText (floatRepr : ℚ → String) : Prop where
  injective : Function.Injective floatRepr
  signed : ∀ q, floatRepr q ≠ "-0.0"
  chars : ∀ q, ∀ c ∈ (floatRepr q).toList, isNumberChar c = true
  fraction : ∀ q, ∃ c ∈ (floatRepr q).toList, c = '.' ∨ c = 'e'

/-- No number goes on here. -/
def Stops (rest : List Char) : Prop := ∀ c ∈ rest.head?, isNumberChar c = false

theorem stops_cons {c : Char} {rest : List Char} (h : isNumberChar c = false) :
    Stops (c :: rest) := by
  intro d hd
  rw [List.head?_cons, Option.mem_some_iff] at hd
  exact hd ▸ h

theorem takeWhile_number {text rest : List Char} (htext : ∀ c ∈ text, isNumberChar c = true)
    (hrest : Stops rest) : (text ++ rest).takeWhile isNumberChar = text := by
  rw [List.takeWhile_append_of_pos htext]
  cases rest with
  | nil => exact List.append_nil text
  | cons c rest =>
      have hc : isNumberChar c = false := hrest c rfl
      simp [hc]

/-- A number is read back from the start of a text. -/
theorem number_append_inj {text text' rest rest' : List Char}
    (htext : ∀ c ∈ text, isNumberChar c = true) (htext' : ∀ c ∈ text', isNumberChar c = true)
    (hrest : Stops rest) (hrest' : Stops rest') (h : text ++ rest = text' ++ rest') :
    text = text' ∧ rest = rest' := by
  have hsame : text = text' := by
    rw [← takeWhile_number htext hrest, h, takeWhile_number htext' hrest']
  subst hsame
  exact ⟨rfl, List.append_cancel_left h⟩

theorem isNumberChar_int {n : ℤ} : ∀ c ∈ (toString n).toList, isNumberChar c = true := by
  intro c hc
  rcases Text.mem_toList_int hc with rfl | hdigit
  · decide
  · simp [isNumberChar, hdigit]

/-! ## The start of a text -/

/-- The kinds of documents that their first character tells apart. -/
inductive Kind where
  | null | bool | number | str | arr | obj
  deriving DecidableEq

def kind : Json → Kind
  | .null => .null
  | .bool _ => .bool
  | .int _ | .float _ | .negZero => .number
  | .str _ => .str
  | .arr _ => .arr
  | .obj _ => .obj

/-- The kind of a document that begins with a character. -/
def kindOfFirst (c : Char) : Kind :=
  if c = 'n' then .null else if c = 't' ∨ c = 'f' then .bool else if c = '"' then .str
  else if c = '[' then .arr else if c = '\x7b' then .obj else .number

theorem kindOfFirst_number {c : Char} (h : isNumberChar c = true) :
    kindOfFirst c = .number ∧ c ≠ ']' := by
  have hnone : ∀ d ∈ ['n', 't', 'f', '"', '[', '\x7b', ']'], isNumberChar d = false := by decide
  have hother : ∀ d ∈ ['n', 't', 'f', '"', '[', '\x7b', ']'], c ≠ d := by
    intro d hd heq
    rw [heq, hnone d hd] at h
    cases h
  simp only [List.mem_cons, List.not_mem_nil, or_false, forall_eq_or_imp, forall_eq] at hother
  simp [kindOfFirst, hother]

/-! ## Documents -/

section Documents

variable (floatRepr : ℚ → String)

/-- The text of a document. -/
def printed (document : Json) : List Char := (render floatRepr document).toList

/-- The text of a field of an object. -/
def fieldText (field : String × Json) : List Char :=
  (quote field.1).toList ++ ':' :: printed floatRepr field.2

/-- What follows the first part of an array or object. -/
def tailText (parts : List (List Char)) : List Char := parts.flatMap fun part => ',' :: part

variable {floatRepr}

theorem intercalate_cons (part : List Char) (parts : List (List Char)) :
    [','].intercalate (part :: parts) = part ++ tailText parts := by
  induction parts generalizing part with
  | nil => simp [tailText]
  | cons next parts ih =>
      rw [List.intercalate_cons_cons, ih]
      simp [tailText]

theorem stops_tailText {parts : List (List Char)} {c : Char} {rest : List Char}
    (h : isNumberChar c = false) : Stops (tailText parts ++ c :: rest) := by
  cases parts with
  | nil => exact stops_cons h
  | cons part parts => exact stops_cons (by decide)

theorem renderItems_eq_map (items : List Json) :
    renderItems floatRepr items = items.map (render floatRepr) := by
  induction items with
  | nil => rw [renderItems, List.map_nil]
  | cons item items ih => rw [renderItems, ih, List.map_cons]

theorem renderFields_eq_map (fields : List (String × Json)) :
    renderFields floatRepr fields =
      fields.map fun f => quote f.1 ++ ":" ++ render floatRepr f.2 := by
  induction fields with
  | nil => rw [renderFields, List.map_nil]
  | cons field fields ih => rw [renderFields, ih, List.map_cons]

theorem printed_arr (items : List Json) :
    printed floatRepr (.arr items) =
      '[' :: ([','].intercalate (items.map (printed floatRepr)) ++ [']']) := by
  rw [printed, render, renderItems_eq_map, String.toList_append, String.toList_append,
    String.toList_intercalate, List.map_map]
  rfl

theorem printed_obj (fields : List (String × Json)) :
    printed floatRepr (.obj fields) =
      '\x7b' :: ([','].intercalate (fields.map (fieldText floatRepr)) ++ ['\x7d']) := by
  have hfield : ∀ f : String × Json,
      (quote f.1 ++ ":" ++ render floatRepr f.2).toList = fieldText floatRepr f := by
    intro f
    rw [String.toList_append, String.toList_append, List.append_assoc]
    rfl
  have hfields : (fields.map fun f => quote f.1 ++ ":" ++ render floatRepr f.2).map String.toList =
      fields.map (fieldText floatRepr) := by
    rw [List.map_map]
    exact List.map_congr_left fun f _ => hfield f
  rw [printed, render, renderFields_eq_map, String.toList_append, String.toList_append,
    String.toList_intercalate, hfields]
  rfl

set_option linter.unusedSectionVars false

variable (hnumber : NumberText floatRepr)
include hnumber

theorem exists_first (document : Json) :
    ∃ first rest, printed floatRepr document = first :: rest ∧
      kindOfFirst first = document.kind ∧ first ≠ ']' := by
  have hnumberText : ∀ chars : List Char, chars ≠ [] → (∀ c ∈ chars, isNumberChar c = true) →
      ∃ first rest, chars = first :: rest ∧ kindOfFirst first = .number ∧ first ≠ ']' := by
    intro chars hne hchars
    obtain ⟨first, rest, rfl⟩ := List.exists_cons_of_ne_nil hne
    exact ⟨first, rest, rfl, kindOfFirst_number (hchars first List.mem_cons_self)⟩
  cases document with
  | null => exact ⟨'n', _, by rw [printed, render]; rfl, by decide, by decide⟩
  | bool b =>
      cases b
      · exact ⟨'f', _, by rw [printed, render]; rfl, by decide, by decide⟩
      · exact ⟨'t', _, by rw [printed, render]; rfl, by decide, by decide⟩
  | int n =>
      rw [printed, render]
      refine hnumberText _ ?_ isNumberChar_int
      rw [Text.toList_int]
      split_ifs
      · exact Nat.toDigits_ne_nil
      · exact List.cons_ne_nil _ _
  | float q =>
      rw [printed, render]
      obtain ⟨c, hc, -⟩ := hnumber.fraction q
      exact hnumberText _ (List.ne_nil_of_mem hc) (hnumber.chars q)
  | negZero => exact ⟨'-', _, by rw [printed, render]; rfl, by decide, by decide⟩
  | str s => exact ⟨'"', _, by rw [printed, render, toList_quote], rfl, by decide⟩
  | arr items => exact ⟨'[', _, printed_arr items, rfl, by decide⟩
  | obj fields => exact ⟨'\x7b', _, printed_obj fields, rfl, by decide⟩

/-- Documents whose texts begin alike are of one kind. -/
theorem kind_eq {a b : Json} {rest rest' : List Char}
    (h : printed floatRepr a ++ rest = printed floatRepr b ++ rest') : a.kind = b.kind := by
  obtain ⟨first, tail, hprinted, hkind, -⟩ := exists_first hnumber a
  obtain ⟨first', tail', hprinted', hkind', -⟩ := exists_first hnumber b
  rw [hprinted, hprinted'] at h
  rw [← hkind, ← hkind', (List.cons.inj h).1]

theorem printed_number {a : Json} (h : a.kind = .number) :
    ∀ c ∈ printed floatRepr a, isNumberChar c = true := by
  cases a with
  | int n =>
      rw [printed, render]
      exact isNumberChar_int
  | float q =>
      rw [printed, render]
      exact hnumber.chars q
  | negZero =>
      rw [printed, render]
      decide
  | null | bool | str | arr | obj => cases h

/-- The texts of floats have a point or an exponent. -/
theorem fraction_of_isFloat {a : Json} (h : a.isFloat = true) :
    ∃ c ∈ printed floatRepr a, c = '.' ∨ c = 'e' := by
  cases a with
  | float q =>
      rw [printed, render]
      exact hnumber.fraction q
  | negZero =>
      rw [printed, render]
      exact ⟨'.', by decide, Or.inl rfl⟩
  | null | bool | int | str | arr | obj => cases h

theorem printed_int_ne_float {n : ℤ} {b : Json} (h : b.isFloat = true) :
    printed floatRepr (.int n) ≠ printed floatRepr b := by
  obtain ⟨c, hc, hpoint⟩ := fraction_of_isFloat hnumber h
  intro heq
  rw [← heq, printed, render] at hc
  rcases hpoint with rfl | rfl
  · exact Text.notMem_toList_int (by decide) (by decide) hc
  · exact Text.notMem_toList_int (by decide) (by decide) hc

/-- Numbers with one text are one number. -/
theorem number_of_printed {a b : Json} (ha : a.kind = .number) (hb : b.kind = .number)
    (h : printed floatRepr a = printed floatRepr b) : a = b := by
  cases a with
  | int n =>
      cases b with
      | int m =>
          rw [printed, printed, render, render] at h
          exact congrArg Json.int (Text.toString_int_injective (String.toList_injective h))
      | float | negZero => exact absurd h (printed_int_ne_float hnumber rfl)
      | null | bool | str | arr | obj => cases hb
  | float q =>
      cases b with
      | int m => exact absurd h.symm (printed_int_ne_float hnumber rfl)
      | float p =>
          rw [printed, printed, render, render] at h
          exact congrArg Json.float (hnumber.injective (String.toList_injective h))
      | negZero =>
          rw [printed, printed, render, render] at h
          exact absurd (String.toList_injective h) (hnumber.signed q)
      | null | bool | str | arr | obj => cases hb
  | negZero =>
      cases b with
      | int m => exact absurd h.symm (printed_int_ne_float hnumber rfl)
      | float p =>
          rw [printed, printed, render, render] at h
          exact absurd (String.toList_injective h).symm (hnumber.signed p)
      | negZero => rfl
      | null | bool | str | arr | obj => cases hb
  | null | bool | str | arr | obj => cases ha

theorem printed_append_number {a b : Json} {rest rest' : List Char} (ha : a.kind = .number)
    (hb : b.kind = .number) (hrest : Stops rest) (hrest' : Stops rest')
    (h : printed floatRepr a ++ rest = printed floatRepr b ++ rest') : a = b ∧ rest = rest' := by
  obtain ⟨hchars, hsame⟩ := number_append_inj (printed_number hnumber ha)
    (printed_number hnumber hb) hrest hrest' h
  exact ⟨number_of_printed hnumber ha hb hchars, hsame⟩

mutual

/-- A document is read back from the start of a text, if no number goes on after it. -/
theorem printed_append_inj : ∀ {a b : Json} {rest rest' : List Char}, Stops rest → Stops rest' →
    printed floatRepr a ++ rest = printed floatRepr b ++ rest' → a = b ∧ rest = rest'
  | .null, b, rest, rest', _, _, h => by
      have hkind := kind_eq hnumber h
      cases b with
      | null => exact ⟨rfl, List.append_cancel_left h⟩
      | bool | int | float | negZero | str | arr | obj => cases hkind
  | .bool x, b, rest, rest', _, _, h => by
      have hkind := kind_eq hnumber h
      cases b with
      | bool y =>
          rw [printed, printed, render, render] at h
          cases x <;> cases y
          · exact ⟨rfl, List.append_cancel_left h⟩
          · exact absurd (List.cons.inj h).1 (by decide)
          · exact absurd (List.cons.inj h).1 (by decide)
          · exact ⟨rfl, List.append_cancel_left h⟩
      | null | int | float | negZero | str | arr | obj => cases hkind
  | .int n, b, rest, rest', hrest, hrest', h =>
      printed_append_number hnumber rfl (kind_eq hnumber h).symm hrest hrest' h
  | .float q, b, rest, rest', hrest, hrest', h =>
      printed_append_number hnumber rfl (kind_eq hnumber h).symm hrest hrest' h
  | .negZero, b, rest, rest', hrest, hrest', h =>
      printed_append_number hnumber rfl (kind_eq hnumber h).symm hrest hrest' h
  | .str s, b, rest, rest', _, _, h => by
      have hkind := kind_eq hnumber h
      cases b with
      | str t =>
          rw [printed, printed, render, render] at h
          obtain ⟨rfl, hsame⟩ := quote_append_inj h
          exact ⟨rfl, hsame⟩
      | null | bool | int | float | negZero | arr | obj => cases hkind
  | .arr [], b, rest, rest', _, _, h => by
      have hkind := kind_eq hnumber h
      cases b with
      | arr ys =>
          rw [printed_arr, printed_arr] at h
          cases ys with
          | nil => exact ⟨rfl, List.append_cancel_left h⟩
          | cons y ys =>
              obtain ⟨first, tail, hfirst, -, hne⟩ := exists_first hnumber y
              rw [List.map_cons, intercalate_cons, hfirst] at h
              exact absurd (List.cons.inj (List.cons.inj h).2).1.symm hne
      | null | bool | int | float | negZero | str | obj => cases hkind
  | .arr (x :: xs), b, rest, rest', _, _, h => by
      have hkind := kind_eq hnumber h
      cases b with
      | arr ys =>
          rw [printed_arr, printed_arr] at h
          cases ys with
          | nil =>
              obtain ⟨first, tail, hfirst, -, hne⟩ := exists_first hnumber x
              rw [List.map_cons, intercalate_cons, hfirst] at h
              exact absurd (List.cons.inj (List.cons.inj h).2).1 hne
          | cons y ys =>
              simp only [List.map_cons, intercalate_cons, List.cons_append, List.append_assoc,
                List.nil_append, List.cons.injEq, true_and] at h
              obtain ⟨rfl, htail⟩ := printed_append_inj (stops_tailText (by decide))
                (stops_tailText (by decide)) h
              obtain ⟨rfl, hsame⟩ := items_append_inj htail
              exact ⟨rfl, hsame⟩
      | null | bool | int | float | negZero | str | obj => cases hkind
  | .obj [], b, rest, rest', _, _, h => by
      have hkind := kind_eq hnumber h
      cases b with
      | obj fields =>
          rw [printed_obj, printed_obj] at h
          cases fields with
          | nil => exact ⟨rfl, List.append_cancel_left h⟩
          | cons f fields =>
              rw [List.map_cons, intercalate_cons, fieldText, toList_quote] at h
              exact absurd (List.cons.inj (List.cons.inj h).2).1 (by decide)
      | null | bool | int | float | negZero | str | arr => cases hkind
  | .obj ((key, x) :: fields), b, rest, rest', _, _, h => by
      have hkind := kind_eq hnumber h
      cases b with
      | obj fields' =>
          rw [printed_obj, printed_obj] at h
          cases fields' with
          | nil =>
              rw [List.map_cons, intercalate_cons, fieldText, toList_quote] at h
              exact absurd (List.cons.inj (List.cons.inj h).2).1 (by decide)
          | cons f fields' =>
              obtain ⟨key', y⟩ := f
              simp only [List.map_cons, intercalate_cons, fieldText, List.cons_append,
                List.append_assoc, List.nil_append, List.cons.injEq, true_and] at h
              obtain ⟨rfl, hvalue⟩ := quote_append_inj h
              obtain ⟨rfl, htail⟩ := printed_append_inj (stops_tailText (by decide))
                (stops_tailText (by decide)) (List.cons.inj hvalue).2
              obtain ⟨rfl, hsame⟩ := fields_append_inj htail
              exact ⟨rfl, hsame⟩
      | null | bool | int | float | negZero | str | arr => cases hkind

theorem items_append_inj : ∀ {xs ys : List Json} {rest rest' : List Char},
    tailText (xs.map (printed floatRepr)) ++ ']' :: rest =
      tailText (ys.map (printed floatRepr)) ++ ']' :: rest' → xs = ys ∧ rest = rest'
  | [], [], rest, rest', h => ⟨rfl, (List.cons.inj h).2⟩
  | [], y :: ys, rest, rest', h => absurd (List.cons.inj h).1 (by decide)
  | x :: xs, [], rest, rest', h => absurd (List.cons.inj h).1 (by decide)
  | x :: xs, y :: ys, rest, rest', h => by
      simp only [tailText, List.map_cons, List.flatMap_cons, List.cons_append, List.append_assoc,
        List.cons.injEq, true_and] at h
      obtain ⟨rfl, htail⟩ := printed_append_inj (stops_tailText (by decide))
        (stops_tailText (by decide)) h
      obtain ⟨rfl, hsame⟩ := items_append_inj htail
      exact ⟨rfl, hsame⟩

theorem fields_append_inj : ∀ {fields fields' : List (String × Json)} {rest rest' : List Char},
    tailText (fields.map (fieldText floatRepr)) ++ '\x7d' :: rest =
      tailText (fields'.map (fieldText floatRepr)) ++ '\x7d' :: rest' →
        fields = fields' ∧ rest = rest'
  | [], [], rest, rest', h => ⟨rfl, (List.cons.inj h).2⟩
  | [], _ :: _, rest, rest', h => absurd (List.cons.inj h).1 (by decide)
  | _ :: _, [], rest, rest', h => absurd (List.cons.inj h).1 (by decide)
  | (key, x) :: fields, (key', y) :: fields', rest, rest', h => by
      simp only [tailText, fieldText, List.map_cons, List.flatMap_cons, List.cons_append,
        List.append_assoc, List.cons.injEq, true_and] at h
      obtain ⟨rfl, hvalue⟩ := quote_append_inj h
      obtain ⟨rfl, htail⟩ := printed_append_inj (stops_tailText (by decide))
        (stops_tailText (by decide)) (List.cons.inj hvalue).2
      obtain ⟨rfl, hsame⟩ := fields_append_inj htail
      exact ⟨rfl, hsame⟩

end

/-- Different documents have different texts. -/
theorem render_injective : Function.Injective (render floatRepr) := by
  intro a b h
  have hstops : Stops [] := fun c hc => by cases hc
  refine (@printed_append_inj floatRepr hnumber a b [] [] hstops hstops ?_).1
  rw [printed, printed, h]

end Documents

/-! ## Zeros -/

mutual

/-- The document with `0.0` for every `-0.0`, so that equal floats are the same. -/
def unsigned : Json → Json
  | .negZero => .float 0
  | .arr items => .arr (unsignedItems items)
  | .obj fields => .obj (unsignedFields fields)
  | document => document

def unsignedItems : List Json → List Json
  | [] => []
  | item :: items => unsigned item :: unsignedItems items

def unsignedFields : List (String × Json) → List (String × Json)
  | [] => []
  | (key, value) :: fields => (key, unsigned value) :: unsignedFields fields

end

end VoxBench.ControlPlane.Json

namespace VoxBench.Registry

open VoxBench.Lib VoxBench.ControlPlane VoxBench.ControlPlane.Json

/-- The bytes whose digest is the hash of a config. -/
def hashedBytes (lib : Libraries) (value : Json) : List UInt8 :=
  (canonicalJson lib value).toUTF8.toList

section Canonical

variable {lib : Libraries} (hnumber : NumberText lib.floatRepr)
include hnumber

/-- Equal canonical texts are those of one document, but for the order of keys. -/
theorem canonicalJson_eq_iff {a b : Json} (ha : a.keyed) :
    canonicalJson lib a = canonicalJson lib b ↔ Reordered a b := by
  rw [canonicalJson, canonicalJson, (render_injective hnumber).eq_iff]
  exact sortKeys_eq_iff ha

/-- A digest identifies a document up to the order of keys, among those that it does not collide
with. -/
theorem resolvedHash_eq_iff {a b : Json} (ha : a.keyed)
    (hcollision : Sha256.hexdigest (hashedBytes lib a) = Sha256.hexdigest (hashedBytes lib b) →
      hashedBytes lib a = hashedBytes lib b) :
    resolvedHash lib a = resolvedHash lib b ↔ Reordered a b := by
  rw [← canonicalJson_eq_iff hnumber ha]
  constructor
  · intro h
    exact toUTF8_toList_injective (hcollision h)
  · intro h
    rw [resolvedHash, resolvedHash, h]

end Canonical

/-- Canonical texts forget the order of keys and nothing else. So two resolved configs have one
hash exactly when they are the same but for the order of keys, if their texts are no collision
of SHA-256. -/
theorem canonical_identifies (lib : Libraries) (hnumber : NumberText lib.floatRepr) :
    (∀ a b : JsonObject,
      canonicalJson lib a.json = canonicalJson lib b.json ↔ Reordered a.json b.json) ∧
    ∀ (service service' : RegistryService lib) (name name' : String)
      (result result' : ResolvedConfig),
      service.resolveConfig name = .ok result → service'.resolveConfig name' = .ok result' →
      (Sha256.hexdigest (hashedBytes lib result.resolved.json) =
          Sha256.hexdigest (hashedBytes lib result'.resolved.json) →
        hashedBytes lib result.resolved.json = hashedBytes lib result'.resolved.json) →
      (result.hash = result'.hash ↔ Reordered result.resolved.json result'.resolved.json) := by
  constructor
  · intro a b
    exact canonicalJson_eq_iff hnumber a.keyed
  · intro service service' name name' result result' hresult hresult' hcollision
    obtain ⟨-, -, -, -, -, -, hhash⟩ := service.resolveConfig_spec hresult
    obtain ⟨-, -, -, -, -, -, hhash'⟩ := service'.resolveConfig_spec hresult'
    rw [hhash, hhash']
    exact resolvedHash_eq_iff hnumber result.resolved.keyed hcollision

/-! ## Two orders of keys -/

/-- The numerator as the whole part of a text, so that a whole number has the text it should. -/
def pointRepr (q : ℚ) : String := toString q.num ++ "." ++ toString ((q.den : ℤ) - 1)

/-- No integer is written with a minus sign before zero. -/
theorem toList_int_ne_negZero {n : ℤ} : (toString n).toList ≠ "-0".toList := by
  intro h
  have hsign : "-0".toList = '-' :: Nat.toDigits 10 0 := by decide
  rw [Text.toList_int, hsign] at h
  split_ifs at h with hn
  · have hmem : '-' ∈ Nat.toDigits 10 n.toNat := h ▸ List.mem_cons_self
    exact absurd (Text.isDigit_of_mem_toDigits hmem) (by decide)
  · have hzero : (-n).toNat = 0 :=
      Text.repr_inj (by rw [Nat.toList_repr, Nat.toList_repr, (List.cons.inj h).2])
    omega

theorem toList_pointRepr (q : ℚ) :
    (pointRepr q).toList =
      (toString q.num).toList ++ '.' :: (toString ((q.den : ℤ) - 1)).toList := by
  rw [pointRepr, String.toList_append, String.toList_append, List.append_assoc]
  rfl

theorem numberText_pointRepr : NumberText pointRepr where
  injective := by
    have hpoint : ∀ n : ℤ, '.' ∉ (toString n).toList := by
      intro n
      exact Text.notMem_toList_int (by decide) (by decide)
    intro p q h
    have hchars : (pointRepr p).toList = (pointRepr q).toList := congrArg String.toList h
    rw [toList_pointRepr, toList_pointRepr] at hchars
    obtain ⟨hnum, hden⟩ := append_mark_inj (hpoint _) (hpoint _) hchars
    have hnum := Text.toString_int_injective (String.toList_injective hnum)
    have hden := Text.toString_int_injective (String.toList_injective hden)
    exact Rat.ext hnum (by omega)
  signed := by
    intro q h
    have hchars : (pointRepr q).toList = "-0.0".toList := congrArg String.toList h
    have hsign : "-0.0".toList = "-0".toList ++ '.' :: "0".toList := by decide
    rw [toList_pointRepr, hsign] at hchars
    obtain ⟨hnum, -⟩ := append_mark_inj (Text.notMem_toList_int (by decide) (by decide))
      (by decide) hchars
    exact toList_int_ne_negZero hnum
  chars := by
    intro q c hc
    rw [toList_pointRepr] at hc
    rcases List.mem_append.mp hc with hc | hc
    · exact isNumberChar_int c hc
    · rcases List.mem_cons.mp hc with rfl | hc
      · decide
      · exact isNumberChar_int c hc
  fraction := by
    intro q
    refine ⟨'.', ?_, Or.inl rfl⟩
    rw [toList_pointRepr]
    exact List.mem_append_right _ List.mem_cons_self

/-- The plain libraries, with a printing that tells floats apart. -/
def pointLibraries : Libraries := { plainLibraries with floatRepr := pointRepr }

/-- An overlay of the base whose one stage has parameters. -/
def tunedConfig (params : Json) (h : params.keyed) : JsonObject where
  fields := [
    ("meta", .obj [("name", .str "tuned"), ("version", .str "1.0.1"), ("parent", .str "base")]),
    ("spec", .obj [("media", .obj [("pipeline", .arr [
      .obj [("type", .str "resample"), ("plugin", .str "resampler"), ("params", params)]])])])]
  keyed := by
    simp [Json.keyed, Json.keyedFields, Json.keyedItems, h]

/-- A registry with the base and a tuned overlay of it. -/
def tunedRegistry (params : Json) (h : params.keyed) :
    Except RegistryError (RegistryService pointLibraries) := do
  let service : RegistryService pointLibraries :=
    { manifests := [], configs := [], named := named_nil }
  let service ← rawManifests.foldlM (fun s raw => return (← s.registerManifest raw).2) service
  let service ← service.registerConfig baseConfig
  service.registerConfig (tunedConfig params h)

/-- The theorem at two orders of the parameters of a stage; a whole float is not its integer. -/
theorem canonical_identifies_tuned :
    (∃ service service' result result',
      tunedRegistry (.obj [("rate", .int 1), ("gain", .float 1)]) rfl = .ok service ∧
      tunedRegistry (.obj [("gain", .float 1), ("rate", .int 1)]) rfl = .ok service' ∧
      service.resolveConfig "tuned" = .ok result ∧ service'.resolveConfig "tuned" = .ok result' ∧
      Reordered result.resolved.json result'.resolved.json ∧ result.hash = result'.hash) ∧
    ¬ Reordered (.obj [("gain", .float 1)]) (.obj [("gain", .int 1)]) := by
  obtain ⟨htexts, hhashes⟩ := canonical_identifies pointLibraries numberText_pointRepr
  constructor
  · have hrun : (do
        let service ← tunedRegistry (.obj [("rate", .int 1), ("gain", .float 1)]) rfl
        let service' ← tunedRegistry (.obj [("gain", .float 1), ("rate", .int 1)]) rfl
        let result ← service.resolveConfig "tuned"
        let result' ← service'.resolveConfig "tuned"
        pure (decide (canonicalJson pointLibraries result.resolved.json =
          canonicalJson pointLibraries result'.resolved.json))).toOption = some true := by
      decide +kernel
    have hrun := eq_ok_of_toOption hrun
    simp only [bind_eq_ok] at hrun
    obtain ⟨service, hservice, service', hservice', result, hresult, result', hresult', heq⟩ := hrun
    have htext := of_decide_eq_true (Except.ok.inj heq)
    have hreordered := (htexts result.resolved result'.resolved).mp htext
    refine ⟨service, service', result, result', hservice, hservice', hresult, hresult', hreordered,
      (hhashes _ _ _ _ _ _ hresult hresult' ?_).mpr hreordered⟩
    intro _
    rw [hashedBytes, hashedBytes, htext]
  · intro hreordered
    have htext := (htexts ⟨[("gain", .float 1)], rfl⟩ ⟨[("gain", .int 1)], rfl⟩).mpr hreordered
    exact absurd htext (by decide +kernel)

/-- Two configs whose one difference is a gain of `-0.0` in place of `0.0`: all their values are
equal, their texts differ, and so do their hashes if the texts are no collision. -/
theorem negZero_told_apart :
    ∃ service service' result result',
      tunedRegistry (.obj [("gain", .negZero)]) rfl = .ok service ∧
      tunedRegistry (.obj [("gain", .float 0)]) rfl = .ok service' ∧
      service.resolveConfig "tuned" = .ok result ∧ service'.resolveConfig "tuned" = .ok result' ∧
      Reordered result.resolved.json.unsigned result'.resolved.json.unsigned ∧
      canonicalJson pointLibraries result.resolved.json ≠
        canonicalJson pointLibraries result'.resolved.json ∧
      ((Sha256.hexdigest (hashedBytes pointLibraries result.resolved.json) =
          Sha256.hexdigest (hashedBytes pointLibraries result'.resolved.json) →
        hashedBytes pointLibraries result.resolved.json =
          hashedBytes pointLibraries result'.resolved.json) → result.hash ≠ result'.hash) := by
  have hrun : (do
      let service ← tunedRegistry (.obj [("gain", .negZero)]) rfl
      let service' ← tunedRegistry (.obj [("gain", .float 0)]) rfl
      let result ← service.resolveConfig "tuned"
      let result' ← service'.resolveConfig "tuned"
      pure (decide (result.resolved.json.unsigned.keyed = true ∧
        canonicalJson pointLibraries result.resolved.json.unsigned =
          canonicalJson pointLibraries result'.resolved.json.unsigned ∧
        canonicalJson pointLibraries result.resolved.json ≠
          canonicalJson pointLibraries result'.resolved.json))).toOption = some true := by
    decide +kernel
  have hrun := eq_ok_of_toOption hrun
  simp only [bind_eq_ok] at hrun
  obtain ⟨service, hservice, service', hservice', result, hresult, result', hresult', heq⟩ := hrun
  obtain ⟨hkeyed, hunsigned, htext⟩ := of_decide_eq_true (Except.ok.inj heq)
  refine ⟨service, service', result, result', hservice, hservice', hresult, hresult',
    (canonicalJson_eq_iff numberText_pointRepr hkeyed).mp hunsigned, htext, ?_⟩
  intro hcollision hhash
  obtain ⟨-, -, -, -, -, -, hhash₁⟩ := service.resolveConfig_spec hresult
  obtain ⟨-, -, -, -, -, -, hhash₂⟩ := service'.resolveConfig_spec hresult'
  rw [hhash₁, hhash₂] at hhash
  have hsame := (resolvedHash_eq_iff numberText_pointRepr result.resolved.keyed hcollision).mp hhash
  exact htext ((canonicalJson_eq_iff numberText_pointRepr result.resolved.keyed).mpr hsame)

end VoxBench.Registry
