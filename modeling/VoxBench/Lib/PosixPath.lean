import VoxBench.Lib.Delimited
import Mathlib.Data.List.Induction
import Mathlib.Data.Nat.Notation

/-!
# POSIX paths

Paths as `pathlib` takes them apart and joins them: empty segments and single dots are dropped,
an absolute right operand replaces the left one. Where a path leads is found by walking its
segments, of which two dots climb to the parent. There are no symbolic links.

## Main definitions

* `PurePath.parse`, `PurePath.join` — pure paths.
* `walk` — the directory that some segments lead to.
* `normal` — some segments as a number of climbs and the names after them.

## Main results

* `PurePath.parse_str` — the text of a path is read back.
* `walk_eq` — walking is climbing, and going down the names.
* `dotdot_notMem_walk` — where a walk ends there are no climbs left.
-/

namespace VoxBench.Lib.PosixPath

/-- A segment of a path. -/
abbrev Name := List Char

/-- The parent directory. -/
def dotdot : Name := ['.', '.']

/-- The segments of a text. -/
def segments (text : List Char) : List Name :=
  (text.splitOn '/').filter fun s => s ≠ [] ∧ s ≠ ['.']

/-- The root of a path and the rest. Two slashes are a root of their own, more are one. -/
def splitRoot : List Char → List Char × List Char
  | '/' :: '/' :: rest => if rest.head? = some '/' then (['/'], '/' :: rest) else (['/', '/'], rest)
  | '/' :: rest => (['/'], rest)
  | text => ([], text)

structure PurePath where
  root : List Char
  parts : List Name
  deriving DecidableEq, Repr

namespace PurePath

/-- `Path(text)`. -/
def parse (text : List Char) : PurePath :=
  let (root, rest) := splitRoot text
  ⟨root, segments rest⟩

/-- `path / text`. -/
def join (path : PurePath) (text : List Char) : PurePath :=
  let right := parse text
  if right.root = [] then ⟨path.root, path.parts ++ right.parts⟩ else right

/-- `str(path)`. -/
def str (path : PurePath) : List Char :=
  if path.root = [] ∧ path.parts = [] then ['.'] else path.root ++ ['/'].intercalate path.parts

end PurePath

/-! ## Segments -/

@[simp] theorem segments_nil : segments [] = [] := rfl

theorem segments_append_slash (a b : List Char) :
    segments (a ++ '/' :: b) = segments a ++ segments b := by
  rw [segments, List.splitOn_append_cons_self, List.filter_append]
  rfl

theorem segments_cons_slash (text : List Char) : segments ('/' :: text) = segments text := by
  have h := segments_append_slash [] text
  rwa [List.nil_append, segments_nil, List.nil_append] at h

theorem segments_name {name : Name} (hslash : '/' ∉ name) (hempty : name ≠ [])
    (hdot : name ≠ ['.']) : segments name = [name] := by
  simp [segments, List.splitOn_eq_singleton hslash, hempty, hdot]

/-- The slashes of a root are no segments. -/
theorem parts_parse (text : List Char) : (PurePath.parse text).parts = segments text := by
  have hroot : segments (splitRoot text).2 = segments text := by
    fun_cases splitRoot text <;> simp_all only [segments_cons_slash]
  exact hroot

/-- The characters of a text are those of its segments, but for slashes and dots. -/
theorem mem_segments_iff {c : Char} {text : List Char} (hslash : c ≠ '/') (hdot : c ≠ '.') :
    (∃ s ∈ segments text, c ∈ s) ↔ c ∈ text := by
  rw [← @List.intercalate_splitOn Char text _ _ '/', mem_intercalate_iff hslash,
    List.intercalate_splitOn]
  constructor
  · rintro ⟨s, hs, hc⟩
    exact ⟨s, (List.mem_filter.mp hs).1, hc⟩
  · rintro ⟨s, hs, hc⟩
    refine ⟨s, List.mem_filter.mpr ⟨hs, ?_⟩, hc⟩
    simp only [decide_eq_true_eq]
    constructor
    · rintro rfl
      cases hc
    · rintro rfl
      exact hdot (List.mem_singleton.mp hc)

/-- The last segment of a text is what stands after its last slash. -/
theorem exists_last_segment (text : List Char) {suffix : List Char} (hslash : '/' ∉ suffix)
    (hlong : 2 ≤ suffix.length) :
    ∃ before last, segments (text ++ suffix) = before ++ [last ++ suffix] := by
  have hname : ∀ last : List Char, '/' ∉ last → segments (last ++ suffix) = [last ++ suffix] := by
    intro last hlast
    have hlength : 2 ≤ (last ++ suffix).length := by
      rw [List.length_append]
      omega
    apply segments_name
    · simp [hlast, hslash]
    · intro h
      simp [h] at hlength
    · intro h
      simp [h] at hlength
  by_cases hmem : '/' ∈ text
  · obtain ⟨after, before, hcut, hafter⟩ :=
      List.eq_append_cons_of_mem (List.mem_reverse.mpr hmem)
    have htext : text = before.reverse ++ '/' :: after.reverse := by
      rw [← List.reverse_reverse text, hcut]
      simp
    refine ⟨segments before.reverse, after.reverse, ?_⟩
    rw [htext, List.append_assoc, List.cons_append, segments_append_slash,
      hname _ (by simpa using hafter)]
  · exact ⟨[], text, hname text hmem⟩

/-! ## Texts of paths -/

/-- What the parts of a path can be. -/
structure PurePath.WellFormed (path : PurePath) : Prop where
  root : path.root ∈ [[], ['/'], ['/', '/']]
  parts : ∀ part ∈ path.parts, '/' ∉ part ∧ part ≠ [] ∧ part ≠ ['.']

theorem segments_spec {text : List Char} {s : Name} (h : s ∈ segments text) :
    '/' ∉ s ∧ s ≠ [] ∧ s ≠ ['.'] := by
  obtain ⟨hs, hkept⟩ := List.mem_filter.mp h
  rw [decide_eq_true_eq] at hkept
  exact ⟨mark_notMem_of_splitOn hs, hkept⟩

theorem segments_intercalate {parts : List Name}
    (h : ∀ part ∈ parts, '/' ∉ part ∧ part ≠ [] ∧ part ≠ ['.']) :
    segments (['/'].intercalate parts) = parts := by
  cases parts with
  | nil => rfl
  | cons part parts =>
      rw [segments, List.splitOn_intercalate _ (fun s hs => (h s hs).1) (List.cons_ne_nil _ _),
        List.filter_eq_self]
      intro s hs
      exact decide_eq_true (h s hs).2

theorem PurePath.wellFormed_parse (text : List Char) : (PurePath.parse text).WellFormed where
  root := by
    have hroot : (splitRoot text).1 ∈ [[], ['/'], ['/', '/']] := by
      fun_cases splitRoot text
      all_goals simp
    exact hroot
  parts part hpart := by
    rw [parts_parse] at hpart
    exact segments_spec hpart

theorem PurePath.WellFormed.join {path : PurePath} (h : path.WellFormed) (text : List Char) :
    (path.join text).WellFormed := by
  unfold PurePath.join
  have hright := wellFormed_parse text
  dsimp only
  split_ifs
  · refine ⟨h.root, fun part hpart => ?_⟩
    rcases List.mem_append.mp hpart with hpart | hpart
    · exact h.parts part hpart
    · exact hright.parts part hpart
  · exact hright

theorem PurePath.root_join {path : PurePath} (h : path.root ≠ []) (text : List Char) :
    (path.join text).root ≠ [] := by
  unfold PurePath.join
  dsimp only
  split_ifs with hright
  · exact h
  · exact hright

/-- The text of an absolute path is read back. -/
theorem PurePath.parse_str {path : PurePath} (h : path.WellFormed) (habsolute : path.root ≠ []) :
    PurePath.parse path.str = path := by
  obtain ⟨root, parts⟩ := path
  have hstart : ∀ c, (['/'].intercalate parts).head? = some c → c ≠ '/' := by
    intro c hc
    cases parts with
    | nil => cases hc
    | cons part parts =>
        obtain ⟨hslash, hne, -⟩ := h.parts part List.mem_cons_self
        obtain ⟨d, ds, rfl⟩ := List.exists_cons_of_ne_nil hne
        have hfirst : (['/'].intercalate ((d :: ds) :: parts)).head? = some d := by
          cases parts with
          | nil => simp
          | cons _ _ => simp [List.intercalate_cons_cons]
        rw [hfirst] at hc
        obtain rfl := Option.some.inj hc
        rintro rfl
        exact hslash List.mem_cons_self
  have hroot := h.root
  simp only [List.mem_cons, List.not_mem_nil, or_false] at hroot
  have hsplit : splitRoot (root ++ ['/'].intercalate parts) =
      (root, ['/'].intercalate parts) := by
    rcases hroot with rfl | rfl | rfl
    · exact absurd rfl habsolute
    · cases hbody : ['/'].intercalate parts with
      | nil => rfl
      | cons c cs =>
          have hne : c ≠ '/' := hstart c (by rw [hbody]; rfl)
          rw [List.singleton_append, splitRoot]
          exact fun rest heq => hne (List.cons.inj heq).1
    · have hne : (['/'].intercalate parts).head? ≠ some '/' := fun hc => hstart '/' hc rfl
      rw [List.cons_append, List.singleton_append, splitRoot, if_neg hne]
  rw [PurePath.str, if_neg (fun hnone => habsolute hnone.1), PurePath.parse]
  simp only [hsplit, segments_intercalate h.parts]

/-! ## Walks -/

/-- One segment. The root is its own parent. -/
def step (dir : List Name) (part : Name) : List Name :=
  if part = dotdot then dir.dropLast else dir ++ [part]

/-- Where some segments lead from a directory. -/
def walk (dir : List Name) (parts : List Name) : List Name := parts.foldl step dir

/-- A number of climbs, then names. -/
structure Normal where
  climbs : ℕ
  names : List Name
  deriving DecidableEq, Repr

def Normal.step (n : Normal) (part : Name) : Normal :=
  if part = dotdot then
    if n.names = [] then ⟨n.climbs + 1, []⟩ else ⟨n.climbs, n.names.dropLast⟩
  else ⟨n.climbs, n.names ++ [part]⟩

/-- The segments with every name that is climbed out of taken away. -/
def normal (parts : List Name) : Normal := parts.foldl Normal.step ⟨0, []⟩

theorem walk_append (dir parts more : List Name) :
    walk dir (parts ++ more) = walk (walk dir parts) more := by
  simp only [walk, List.foldl_append]

theorem dropLast_take_sub (dir : List Name) (k : ℕ) :
    (dir.take (dir.length - k)).dropLast = dir.take (dir.length - (k + 1)) := by
  rw [List.dropLast_eq_take, List.take_take, List.length_take]
  congr 1
  omega

theorem walk_eq (dir parts : List Name) :
    walk dir parts = dir.take (dir.length - (normal parts).climbs) ++ (normal parts).names := by
  induction parts using List.reverseRecOn with
  | nil => simp [walk, normal]
  | append_singleton parts part ih =>
      have hnormal : normal (parts ++ [part]) = (normal parts).step part := by
        simp only [normal, List.foldl_append, List.foldl_cons, List.foldl_nil]
      rw [walk_append, ih, hnormal]
      simp only [walk, List.foldl_cons, List.foldl_nil, step, Normal.step]
      by_cases hup : part = dotdot
      · rw [if_pos hup, if_pos hup]
        by_cases hnames : (normal parts).names = []
        · rw [if_pos hnames, hnames, List.append_nil, List.append_nil, dropLast_take_sub]
        · rw [if_neg hnames, List.dropLast_append_of_ne_nil hnames]
      · rw [if_neg hup, if_neg hup, List.append_assoc]

/-- Names lead to themselves. -/
theorem normal_of_notMem {parts : List Name} (h : dotdot ∉ parts) : normal parts = ⟨0, parts⟩ := by
  induction parts using List.reverseRecOn with
  | nil => rfl
  | append_singleton parts part ih =>
      simp only [List.mem_append, List.mem_singleton, not_or] at h
      have hparts := ih h.1
      simp only [normal] at hparts
      simp only [normal, List.foldl_append, List.foldl_cons, List.foldl_nil, hparts, Normal.step,
        if_neg (Ne.symm h.2)]

theorem walk_of_notMem {parts : List Name} (dir : List Name) (h : dotdot ∉ parts) :
    walk dir parts = dir ++ parts := by
  rw [walk_eq, normal_of_notMem h, Nat.sub_zero, List.take_length]

/-- A walk from a directory without climbs has none at its end. -/
theorem dotdot_notMem_walk {dir : List Name} (h : dotdot ∉ dir) (parts : List Name) :
    dotdot ∉ walk dir parts := by
  induction parts using List.reverseRecOn with
  | nil => exact h
  | append_singleton parts part ih =>
      rw [walk_append]
      simp only [walk, List.foldl_cons, List.foldl_nil, step] at ih ⊢
      by_cases hup : part = dotdot
      · rw [if_pos hup]
        exact fun hmem => ih (List.dropLast_subset _ hmem)
      · rw [if_neg hup, List.mem_append, List.mem_singleton, not_or]
        exact ⟨ih, Ne.symm hup⟩

end VoxBench.Lib.PosixPath
