import Mathlib.Data.List.Basic
import Mathlib.Data.List.TakeWhile
import Mathlib.Tactic.IntervalCases

/-!
# URLs

`urlparse`: a URL is cut at its first marks into scheme, network location, path, query and
fragment. Texts are lists of code points.

## Main definitions

* `urlparse` — the parts of a URL.
* `Plain` — characters that end no part and are not stripped.

## Main results

* `urlparse_plain` — a URL that is put together from plain parts has these parts.
-/

namespace VoxBench.Lib.Url

/-- The result of `urlparse`. -/
structure ParseResult where
  scheme : List Char
  netloc : List Char
  path : List Char
  params : List Char
  query : List Char
  fragment : List Char
  deriving DecidableEq, Repr

/-- The checks of a network location, which let pass any that is ASCII and has no brackets. -/
structure NetlocCheck where
  accepts : List Char → Bool
  accepts_ascii : ∀ netloc, (∀ c ∈ netloc, c.toNat < 128 ∧ c ∉ ['[', ']']) → accepts netloc = true

/-- `scheme_chars`. -/
def isSchemeChar (c : Char) : Bool := c.isAlphanum || c ∈ ['+', '-', '.']

/-- What stands before and after the first mark. -/
def cutAt (mark : Char) (text : List Char) : List Char × List Char :=
  (text.takeWhile (· ≠ mark), (text.dropWhile (· ≠ mark)).drop 1)

/-- The scheme and the rest. -/
def splitScheme (url : List Char) : List Char × List Char :=
  match url.takeWhile (· ≠ ':'), url.dropWhile (· ≠ ':') with
  | c :: cs, _ :: rest =>
      if c.isAlpha && (c :: cs).all isSchemeChar then ((c :: cs).map Char.toLower, rest)
      else ([], url)
  | _, _ => ([], url)

/-- The marks that end a network location. -/
def netlocEnds : List Char := ['/', '?', '#']

/-- `_splitnetloc`, of a URL that has a network location. -/
def splitNetloc (url : List Char) : List Char × List Char :=
  match url with
  | '/' :: '/' :: rest =>
      (rest.takeWhile (· ∉ netlocEnds), rest.dropWhile (· ∉ netlocEnds))
  | _ => ([], url)

/-- `uses_params`. -/
def usesParams : List (List Char) :=
  ["", "ftp", "hdl", "prospero", "http", "https", "shttp", "rtsp", "rtspu", "sip", "sips", "mms",
    "sftp", "tel"].map String.toList

/-- `_splitparams`: the parameters are those of the last segment. -/
def splitParams (url : List Char) : List Char × List Char :=
  let last := (url.reverse.takeWhile (· ≠ '/')).reverse
  let (segment, params) := cutAt ';' last
  (url.take (url.length - last.length) ++ segment, params)

/-- `urlparse`, or nothing where it raises a `ValueError`. -/
def urlparse (check : NetlocCheck) (url : List Char) : Option ParseResult :=
  let url := (url.dropWhile (·.toNat ≤ 32)).filter (· ∉ ['\t', '\r', '\n'])
  let (scheme, url) := splitScheme url
  let (netloc, url) := splitNetloc url
  if check.accepts netloc then
    let (url, fragment) := cutAt '#' url
    let (url, query) := cutAt '?' url
    let (path, params) := if scheme ∈ usesParams then splitParams url else (url, [])
    some ⟨scheme, netloc, path, params, query, fragment⟩
  else none

/-! ## Plain parts -/

/-- A character that is neither stripped nor the mark of a query or a fragment. -/
def Plain (c : Char) : Prop := 32 < c.toNat ∧ c ≠ '?' ∧ c ≠ '#'

instance (c : Char) : Decidable (Plain c) := inferInstanceAs (Decidable (_ ∧ _ ∧ _))

theorem takeWhile_append_stop {p : Char → Bool} {before rest : List Char} {mark : Char}
    (h : ∀ c ∈ before, p c = true) (hmark : p mark = false) :
    (before ++ mark :: rest).takeWhile p = before ∧
      (before ++ mark :: rest).dropWhile p = mark :: rest := by
  rw [List.takeWhile_append_of_pos h, List.dropWhile_append_of_pos h]
  simp [hmark]

theorem cutAt_of_notMem {mark : Char} {text : List Char} (h : mark ∉ text) :
    cutAt mark text = (text, []) := by
  have hall : ∀ c ∈ text, (decide (c ≠ mark)) = true := by
    intro c hc
    exact decide_eq_true fun heq => h (heq ▸ hc)
  rw [cutAt, List.takeWhile_eq_self_iff.mpr hall, List.dropWhile_eq_nil_iff.mpr hall]
  rfl

/-- Plain text is not stripped. -/
theorem strip_plain {text : List Char} (h : ∀ c ∈ text, 32 < c.toNat) :
    (text.dropWhile (·.toNat ≤ 32)).filter (· ∉ ['\t', '\r', '\n']) = text := by
  have hdrop : text.dropWhile (·.toNat ≤ 32) = text := by
    cases text with
    | nil => rfl
    | cons c cs =>
        have hc := h c List.mem_cons_self
        exact List.dropWhile_cons_of_neg (by simpa using hc)
  rw [hdrop, List.filter_eq_self]
  intro c hc
  have hc := h c hc
  simp only [List.mem_cons, List.not_mem_nil, or_false, not_or, decide_eq_true_eq]
  refine ⟨?_, ?_, ?_⟩ <;> rintro rfl <;> revert hc <;> decide

theorem splitScheme_append {scheme rest : List Char} {c : Char} (hc : c.isAlpha = true)
    (hall : ∀ d ∈ c :: scheme, isSchemeChar d = true)
    (hlower : (c :: scheme).map Char.toLower = c :: scheme) :
    splitScheme (c :: scheme ++ ':' :: rest) = (c :: scheme, rest) := by
  have hcolon : ∀ d ∈ c :: scheme, decide (d ≠ ':') = true := by
    intro d hd
    apply decide_eq_true
    rintro rfl
    exact absurd (hall _ hd) (by decide)
  obtain ⟨htake, hdrop⟩ := @takeWhile_append_stop (fun d => decide (d ≠ ':')) _ rest ':' hcolon
    (by decide)
  rw [splitScheme, htake, hdrop]
  simp only [hc, List.all_eq_true.mpr hall, Bool.and_self, if_true, hlower]

theorem splitNetloc_append {netloc path : List Char} (hnetloc : ∀ c ∈ netloc, c ∉ netlocEnds) :
    splitNetloc ('/' :: '/' :: netloc ++ '/' :: path) = (netloc, '/' :: path) := by
  obtain ⟨htake, hdrop⟩ := @takeWhile_append_stop (fun c => decide (c ∉ netlocEnds)) netloc path '/'
    (fun c hc => decide_eq_true (hnetloc c hc)) (by decide)
  simp only [splitNetloc, List.cons_append, htake, hdrop]

theorem lt_toNat_of_isSchemeChar {c : Char} (h : isSchemeChar c = true) : 32 < c.toNat := by
  by_contra hle
  have hle : c.toNat ≤ 32 := not_lt.mp hle
  have hc : c = Char.ofNat c.toNat := (Char.ofNat_toNat c).symm
  generalize c.toNat = n at hle hc
  subst hc
  interval_cases n <;> exact absurd h (by decide)

/-- The parts of a URL that is put together from plain parts. -/
theorem urlparse_plain (check : NetlocCheck) {scheme netloc path : List Char} {c : Char}
    (hc : c.isAlpha = true) (hscheme : ∀ d ∈ c :: scheme, isSchemeChar d = true)
    (hlower : (c :: scheme).map Char.toLower = c :: scheme) (hparams : c :: scheme ∉ usesParams)
    (hnetloc : ∀ d ∈ netloc, Plain d ∧ d.toNat < 128 ∧ d ∉ ['/', '[', ']'])
    (hpath : ∀ d ∈ path, Plain d) :
    urlparse check (c :: scheme ++ ':' :: '/' :: '/' :: netloc ++ '/' :: path) =
      some ⟨c :: scheme, netloc, '/' :: path, [], [], []⟩ := by
  have hmarks : '#' ∉ '/' :: path ∧ '?' ∉ '/' :: path := by
    constructor <;> intro hmem
    · exact (hpath _ ((List.mem_cons.mp hmem).resolve_left (by decide))).2.2 rfl
    · exact (hpath _ ((List.mem_cons.mp hmem).resolve_left (by decide))).2.1 rfl
  have hplain : ∀ d ∈ c :: scheme ++ ':' :: '/' :: '/' :: netloc ++ '/' :: path, 32 < d.toNat := by
    intro d hd
    simp only [List.cons_append, List.mem_append, List.mem_cons, or_assoc] at hd
    rcases hd with rfl | hd | rfl | rfl | rfl | hd | rfl | hd
    · exact lt_toNat_of_isSchemeChar (hscheme _ List.mem_cons_self)
    · exact lt_toNat_of_isSchemeChar (hscheme d (List.mem_cons_of_mem c hd))
    · decide
    · decide
    · decide
    · exact (hnetloc d hd).1.1
    · decide
    · exact (hpath d hd).1
  have hends : ∀ d ∈ netloc, d ∉ netlocEnds := by
    intro d hd
    obtain ⟨⟨-, hquery, hfragment⟩, -, hslash⟩ := hnetloc d hd
    simp only [List.mem_cons, not_or] at hslash
    simp [netlocEnds, hquery, hfragment, hslash.1]
  have haccepts : check.accepts netloc = true := by
    apply check.accepts_ascii
    intro d hd
    obtain ⟨-, hascii, hslash⟩ := hnetloc d hd
    exact ⟨hascii, fun hbracket => hslash (List.mem_cons_of_mem _ hbracket)⟩
  have hsplit := @splitScheme_append scheme ('/' :: '/' :: netloc ++ '/' :: path) c hc hscheme hlower
  have hurl : c :: scheme ++ ':' :: '/' :: '/' :: netloc ++ '/' :: path =
      c :: scheme ++ ':' :: ('/' :: '/' :: netloc ++ '/' :: path) := by simp
  rw [urlparse, strip_plain hplain, hurl, hsplit]
  simp only [splitNetloc_append hends, haccepts, if_true, cutAt_of_notMem hmarks.1,
    cutAt_of_notMem hmarks.2, hparams, if_false]

end VoxBench.Lib.Url
