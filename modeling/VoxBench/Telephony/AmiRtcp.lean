import VoxBench.Lib.Dict
import VoxBench.Lib.Lines
import VoxBench.Lib.Text
import VoxBench.Lib.Utf8
import Mathlib.Data.List.DropRight

/-!
# AMI messages

A message of the Asterisk Manager Interface is a block of header lines, `Name: value`, that ends
at a blank line. `read_ami_message` reads one line after the other, with bounds on a line, on the
headers of a message and on its bytes. The end of the stream is clean before a message and an
error inside of one.

## Main definitions

* `readAmiMessage` — one message.
* `awaitResponse`, `events` — the messages of a session.
* `AmiBlock` — a message as it is sent.

## Main results

* `ami_messages` — reading inverts sending, for whole streams and for cut ones, and a call never
  reads much more than the longest message.
* `session_events` — the events that a session sees after its login.
-/

namespace VoxBench.Telephony

open VoxBench.Lib

def amiMaxLineBytes : ℕ := 8192
def amiMaxHeaders : ℕ := 128
def amiMaxMessageBytes : ℕ := 65536

/-- `AmiError`, by its subclass. -/
inductive AmiError where
  | connection (message : String)
  | authentication (message : String)
  | protocol (message : String)
  deriving DecidableEq, Repr

/-- What `readline` raises for a line that is longer than the limit of its reader. -/
inductive OverlongLine where
  | valueError
  | limitOverrunError
  deriving DecidableEq, Repr

/-- The header map of a message, in the order of insertion. -/
abbrev Headers := List (String × String)

def newline : UInt8 := 10
def carriageReturn : UInt8 := 13

/-! ## One line -/

/-- `line.rstrip(b"\r\n")`. -/
def rstripLineEnd (line : List UInt8) : List UInt8 :=
  line.rdropWhile fun b => b ∈ [carriageReturn, newline]

/-- `text.partition(":")`. -/
def partition (text : String) : String × String × String :=
  match text.toList.span (· ≠ ':') with
  | (_, []) => (text, "", "")
  | (name, _ :: value) => (String.ofList name, ":", String.ofList value)

/-- What the loop of `read_ami_message` does with a line: stop, or go on. -/
inductive LineOutcome where
  | stop (result : Except AmiError (Option Headers))
  | more (headers : Headers) (totalBytes : ℕ)
  deriving Repr

/-- The body of the loop of `read_ami_message`, after `readline`. -/
def takeLine (headers : Headers) (totalBytes : ℕ) (line : List UInt8) : LineOutcome :=
  if line = [] then
    if headers ≠ [] then .stop (.error (.connection "AMI connection ended during a message"))
    else .stop (.ok none)
  else
    let totalBytes := totalBytes + line.length
    if line.length > amiMaxLineBytes ∨ totalBytes > amiMaxMessageBytes then
      .stop (.error (.protocol "AMI message exceeded the size limit"))
    else if line ∈ [[carriageReturn, newline], [newline]] then .stop (.ok (some headers))
    else if headers.length ≥ amiMaxHeaders then
      .stop (.error (.protocol "AMI message contained too many headers"))
    else
      match decodeUtf8 (rstripLineEnd line) with
      | none => .stop (.error (.protocol "AMI message was not valid UTF-8"))
      | some decoded =>
          let (name, separator, value) := partition decoded
          if separator = "" ∨ Text.strip name = "" then
            .stop (.error (.protocol "AMI message contained a malformed header"))
          else .more (Dict.set headers (Text.strip name) (Text.strip value)) totalBytes

section Line

variable {headers headers' : Headers} {totalBytes totalBytes' : ℕ} {line : List UInt8}

/-- The loop goes on after a line that counts, with a header. -/
theorem takeLine_more (h : takeLine headers totalBytes line = .more headers' totalBytes') :
    0 < line.length ∧ totalBytes' = totalBytes + line.length ∧
      totalBytes' ≤ amiMaxMessageBytes ∧ headers' ≠ [] := by
  simp only [takeLine] at h
  split_ifs at h with hempty hnone hsize hblank hmany
  split at h
  · cases h
  · split_ifs at h with hmalformed
    obtain ⟨rfl, rfl⟩ := LineOutcome.more.inj h
    exact ⟨List.length_pos_iff.mpr hempty, rfl, by omega, Dict.set_ne_nil _ _ _⟩

/-- A line without an end, which only the end of the stream leaves, is no blank line. -/
theorem takeLine_open (hne : line ≠ []) (hopen : newline ∉ line) :
    (∃ e, takeLine headers totalBytes line = .stop (.error e)) ∨
      ∃ headers' totalBytes', takeLine headers totalBytes line = .more headers' totalBytes' := by
  have hblank : line ∉ [[carriageReturn, newline], [newline]] := by
    intro hmem
    simp only [List.mem_cons, List.not_mem_nil, or_false] at hmem
    rcases hmem with rfl | rfl
    · exact hopen (by decide)
    · exact hopen (by decide)
  simp only [takeLine, if_neg hne, if_neg hblank]
  split_ifs
  · exact Or.inl ⟨_, rfl⟩
  · exact Or.inl ⟨_, rfl⟩
  · split
    · exact Or.inl ⟨_, rfl⟩
    · split_ifs
      · exact Or.inl ⟨_, rfl⟩
      · exact Or.inr ⟨_, _, rfl⟩

end Line

/-! ## What is sent -/

inductive LineEnd where
  | lf
  | crlf
  deriving DecidableEq, Repr

def LineEnd.bytes : LineEnd → List UInt8
  | .lf => [newline]
  | .crlf => [carriageReturn, newline]

/-- A header, and how its line ends. -/
structure AmiHeader where
  name : String
  value : String
  lineEnd : LineEnd
  name_ne : name ≠ ""
  name_trimmed : Text.strip name = name
  name_plain : ':' ∉ name.toList ∧ '\n' ∉ name.toList
  value_trimmed : Text.strip value = value
  value_plain : '\n' ∉ value.toList

namespace AmiHeader

variable (header : AmiHeader)

/-- The line of a header, without its end. -/
def text : String := header.name ++ ": " ++ header.value

def bytes : List UInt8 := header.text.toUTF8.toList ++ header.lineEnd.bytes

/-- The line of a header up to its newline. -/
def body : List UInt8 :=
  header.text.toUTF8.toList ++ if header.lineEnd = .crlf then [carriageReturn] else []

theorem bytes_eq : header.bytes = header.body ++ [newline] := by
  rw [bytes, body]
  cases header.lineEnd
  · simp [LineEnd.bytes]
  · simp [LineEnd.bytes]

theorem newline_notMem_body : newline ∉ header.body := by
  have htext : newline ∉ header.text.toUTF8.toList := by
    refine notMem_toUTF8 (by decide) ?_
    intro c hc hcode
    have hchar : c = '\n' := Char.toNat_inj.mp hcode
    subst hchar
    simp only [text, String.toList_append, List.mem_append] at hc
    rcases hc with (hc | hc) | hc
    · exact header.name_plain.2 hc
    · exact absurd hc (by decide)
    · exact header.value_plain hc
  rw [body, List.mem_append, not_or]
  refine ⟨htext, ?_⟩
  split_ifs
  · decide
  · exact List.not_mem_nil

theorem toList_text :
    header.text.toList = header.name.toList ++ ':' :: ' ' :: header.value.toList := by
  have hcolon : ": ".toList = [':', ' '] := by decide
  rw [text, String.toList_append, String.toList_append, hcolon, List.append_assoc]
  rfl

/-- The last character of the text is no part of a line end. -/
theorem exists_last : ∃ cs c, header.text.toList = cs ++ [c] ∧ c ≠ '\r' ∧ c ≠ '\n' := by
  rcases List.eq_nil_or_concat' header.value.toList with hnil | ⟨cs, c, hlast⟩
  · refine ⟨header.name.toList ++ [':'], ' ', ?_, by decide, by decide⟩
    rw [toList_text, hnil, List.append_assoc]
    rfl
  · have hspace : Text.isSpace c = false := by
      have hstripped : Text.stripChars header.value.toList = header.value.toList := by
        rw [← String.toList_ofList (l := Text.stripChars header.value.toList)]
        exact congrArg String.toList header.value_trimmed
      refine Text.getLast?_stripChars header.value.toList c ?_
      rw [hstripped, hlast, List.getLast?_concat]
      rfl
    refine ⟨header.name.toList ++ ':' :: ' ' :: cs, c, ?_, ?_, ?_⟩
    · rw [toList_text, hlast, List.append_assoc]
      rfl
    · rintro rfl
      exact absurd hspace (by decide)
    · rintro rfl
      exact absurd hspace (by decide)

theorem rstripLineEnd_bytes : rstripLineEnd header.bytes = header.text.toUTF8.toList := by
  obtain ⟨cs, c, htext, hreturn, hnewline⟩ := header.exists_last
  have hkept : rstripLineEnd header.text.toUTF8.toList = header.text.toUTF8.toList := by
    rw [rstripLineEnd, List.rdropWhile_eq_self_iff]
    intro hne hmem
    have hbyte := getLast_toUTF8_mem htext hne
    simp only [decide_eq_true_eq, List.mem_cons, List.not_mem_nil, or_false] at hmem
    rcases hmem with hmem | hmem
    · rw [hmem] at hbyte
      exact notMem_utf8EncodeChar (by decide) (fun h => hreturn (Char.toNat_inj.mp h)) hbyte
    · rw [hmem] at hbyte
      exact notMem_utf8EncodeChar (by decide) (fun h => hnewline (Char.toNat_inj.mp h)) hbyte
  have hend : rstripLineEnd header.bytes = rstripLineEnd header.text.toUTF8.toList := by
    rw [bytes]
    cases header.lineEnd with
    | lf =>
        rw [LineEnd.bytes, rstripLineEnd, List.rdropWhile_concat_pos _ _ _ (by decide)]
        rfl
    | crlf =>
        rw [LineEnd.bytes, List.append_cons, rstripLineEnd,
          List.rdropWhile_concat_pos _ _ _ (by decide), List.rdropWhile_concat_pos _ _ _ (by decide)]
        rfl
  exact hend.trans hkept

theorem partition_text : partition header.text = (header.name, ":", " " ++ header.value) := by
  have hname : ∀ c ∈ header.name.toList, decide (c ≠ ':') = true := by
    intro c hc
    rw [decide_eq_true_eq]
    rintro rfl
    exact header.name_plain.1 hc
  have hspan : header.text.toList.span (· ≠ ':') =
      (header.name.toList, ':' :: ' ' :: header.value.toList) := by
    rw [List.span_eq_takeWhile_dropWhile, toList_text, List.takeWhile_append_of_pos hname,
      List.dropWhile_append_of_pos hname]
    simp
  have hvalue : String.ofList (' ' :: header.value.toList) = " " ++ header.value := by
    apply String.toList_injective
    rw [String.toList_ofList, String.toList_append]
    rfl
  rw [partition, hspan]
  simp only [String.ofList_toList, hvalue]

theorem bytes_not_blank : header.bytes ∉ [[carriageReturn, newline], [newline]] := by
  intro hmem
  have hnil : rstripLineEnd header.bytes = [] := by
    simp only [List.mem_cons, List.not_mem_nil, or_false] at hmem
    rcases hmem with hmem | hmem
    · rw [hmem]
      decide
    · rw [hmem]
      decide
  have hnone : "".toUTF8.toList = [] := by
    rw [toList_toUTF8]
    rfl
  have hempty : header.text = "" :=
    toUTF8_toList_injective ((header.rstripLineEnd_bytes.symm.trans hnil).trans hnone.symm)
  obtain ⟨cs, c, htext, -, -⟩ := header.exists_last
  rw [hempty] at htext
  exact List.concat_ne_nil _ _ htext.symm

/-- A line within the limits adds its header. -/
theorem takeLine_bytes {headers : Headers} {totalBytes : ℕ}
    (hline : header.bytes.length ≤ amiMaxLineBytes)
    (htotal : totalBytes + header.bytes.length ≤ amiMaxMessageBytes)
    (hcount : headers.length < amiMaxHeaders) (hnew : header.name ∉ Dict.keys headers) :
    takeLine headers totalBytes header.bytes =
      .more (headers ++ [(header.name, header.value)]) (totalBytes + header.bytes.length) := by
  have hne : header.bytes ≠ [] := by
    rw [bytes_eq]
    exact List.concat_ne_nil _ _
  have hvalue : Text.strip (" " ++ header.value) = header.value := by
    rw [Text.strip, String.toList_append]
    exact (congrArg String.ofList (Text.stripChars_cons (by decide) _)).trans header.value_trimmed
  simp only [takeLine, if_neg hne, if_neg header.bytes_not_blank]
  rw [if_neg (by omega), if_neg (by omega), rstripLineEnd_bytes, decodeUtf8_toUTF8]
  simp only [partition_text, header.name_trimmed, hvalue]
  rw [if_neg ?_, Dict.set_of_not_mem hnew]
  rintro (hcolon | hname)
  · exact absurd hcolon (by decide)
  · exact header.name_ne hname

end AmiHeader

theorem takeLine_blank {headers : Headers} {totalBytes : ℕ} (blank : LineEnd)
    (htotal : totalBytes + blank.bytes.length ≤ amiMaxMessageBytes) :
    takeLine headers totalBytes blank.bytes = .stop (.ok (some headers)) := by
  have hne : blank.bytes ≠ [] := by cases blank <;> decide
  have hshort : blank.bytes.length ≤ amiMaxLineBytes := by cases blank <;> decide
  have hblank : blank.bytes ∈ [[carriageReturn, newline], [newline]] := by
    cases blank <;> decide
  simp only [takeLine, if_neg hne, if_pos hblank]
  rw [if_neg (by omega)]

/-- A message as it is sent, within the limits of the reader. -/
structure AmiBlock where
  lines : List AmiHeader
  blank : LineEnd
  distinct : (lines.map AmiHeader.name).Nodup
  count_le : lines.length ≤ amiMaxHeaders
  lines_fit : ∀ line ∈ lines, line.bytes.length ≤ amiMaxLineBytes
  fits : (lines.flatMap AmiHeader.bytes ++ blank.bytes).length ≤ amiMaxMessageBytes

namespace AmiBlock

def bytes (block : AmiBlock) : List UInt8 :=
  block.lines.flatMap AmiHeader.bytes ++ block.blank.bytes

/-- The header map of a message. -/
def headers (block : AmiBlock) : Headers := block.lines.map fun line => (line.name, line.value)

end AmiBlock

/-- The bytes of messages, one after the other. -/
def encode (messages : List AmiBlock) : List UInt8 := messages.flatMap AmiBlock.bytes

/-- Some whole messages, and a part of the next one. -/
def EndsInside (messages : List AmiBlock) (whole : ℕ) (stream : List UInt8) : Prop :=
  ∃ block inside, messages[whole]? = some block ∧ inside ≠ [] ∧ inside <+: block.bytes ∧
    inside ≠ block.bytes ∧ stream = encode (messages.take whole) ++ inside

/-- A cut is between two messages or inside of one. -/
theorem endsInside_of_cut {messages : List AmiBlock} {stream : List UInt8}
    (h : stream <+: encode messages) :
    (∃ whole ≤ messages.length, stream = encode (messages.take whole)) ∨
      ∃ whole, EndsInside messages whole stream := by
  induction messages generalizing stream with
  | nil => exact Or.inl ⟨0, le_rfl, List.prefix_nil.mp h⟩
  | cons block messages ih =>
      have hencode : encode (block :: messages) = block.bytes ++ encode messages :=
        List.flatMap_cons
      rw [hencode] at h
      rcases List.prefix_or_prefix_of_prefix h (List.prefix_append block.bytes _) with hcut | hwhole
      · by_cases hnone : stream = []
        · exact Or.inl ⟨0, Nat.zero_le _, hnone⟩
        · by_cases hall : stream = block.bytes
          · refine Or.inl ⟨1, by simp, ?_⟩
            simp [encode, hall]
          · exact Or.inr ⟨0, block, stream, rfl, hnone, hcut, hall, rfl⟩
      · obtain ⟨later, rfl⟩ := hwhole
        rcases ih ((List.prefix_append_right_inj block.bytes).mp h) with
          ⟨whole, hle, rfl⟩ | ⟨whole, next, inside, hnext, hne, hcut, hstrict, rfl⟩
        · exact Or.inl ⟨whole + 1, Nat.succ_le_succ hle, List.flatMap_cons.symm⟩
        · refine Or.inr ⟨whole + 1, next, inside, hnext, hne, hcut, hstrict, ?_⟩
          rw [← List.append_assoc]
          exact congrArg (· ++ inside) List.flatMap_cons.symm

/-! ### Lines that are left -/

theorem nextLine_header (header : AmiHeader) (after : List UInt8) :
    nextLine newline (header.bytes ++ after) = (header.bytes, after) := by
  rw [header.bytes_eq, List.append_assoc, List.singleton_append,
    nextLine_append_mark header.newline_notMem_body]

theorem nextLine_blank (blank : LineEnd) (after : List UInt8) :
    nextLine newline (blank.bytes ++ after) = (blank.bytes, after) := by
  cases blank
  · rfl
  · rfl

/-- A blank line up to its newline. -/
theorem exists_blank_body (blank : LineEnd) :
    ∃ body, newline ∉ body ∧ blank.bytes = body ++ [newline] := by
  cases blank with
  | lf => exact ⟨[], by decide, rfl⟩
  | crlf => exact ⟨[carriageReturn], by decide, rfl⟩

/-- The lines of a message are within the limits, after those that were read. -/
structure LinesFit (headers : Headers) (totalBytes : ℕ) (lines : List AmiHeader)
    (blank : LineEnd) : Prop where
  distinct : (Dict.keys headers ++ lines.map AmiHeader.name).Nodup
  count_le : headers.length + lines.length ≤ amiMaxHeaders
  lines_fit : ∀ line ∈ lines, line.bytes.length ≤ amiMaxLineBytes
  fits : totalBytes + (lines.flatMap AmiHeader.bytes ++ blank.bytes).length ≤ amiMaxMessageBytes

theorem LinesFit.takeLine {headers : Headers} {totalBytes : ℕ} {header : AmiHeader}
    {lines : List AmiHeader} {blank : LineEnd}
    (h : LinesFit headers totalBytes (header :: lines) blank) :
    Telephony.takeLine headers totalBytes header.bytes =
        .more (headers ++ [(header.name, header.value)]) (totalBytes + header.bytes.length) ∧
      LinesFit (headers ++ [(header.name, header.value)]) (totalBytes + header.bytes.length)
        lines blank := by
  have hfits := h.fits
  have hcount := h.count_le
  have hdistinct := h.distinct
  simp only [List.flatMap_cons, List.length_append] at hfits
  rw [List.length_cons] at hcount
  rw [List.map_cons, List.nodup_append] at hdistinct
  have hnew : header.name ∉ Dict.keys headers := by
    intro hmem
    exact hdistinct.2.2 _ hmem _ List.mem_cons_self rfl
  constructor
  · exact header.takeLine_bytes (h.lines_fit header List.mem_cons_self) (by omega) (by omega) hnew
  · constructor
    · have hkeys : Dict.keys (headers ++ [(header.name, header.value)]) =
          Dict.keys headers ++ [header.name] := List.map_append
      rw [hkeys, List.append_assoc]
      exact h.distinct
    · rw [List.length_append, List.length_singleton]
      omega
    · exact fun line hline => h.lines_fit line (List.mem_cons_of_mem header hline)
    · rw [List.length_append]
      omega

theorem AmiBlock.linesFit (block : AmiBlock) : LinesFit [] 0 block.lines block.blank where
  distinct := block.distinct
  count_le := by
    rw [List.length_nil, Nat.zero_add]
    exact block.count_le
  lines_fit := block.lines_fit
  fits := by
    rw [Nat.zero_add]
    exact block.fits

/-! ## One message -/

section Messages

variable {σ : Type*} (readline : σ → Except OverlongLine (List UInt8) × σ)

/-- The loop of `read_ami_message`, with the headers and the bytes so far. Every line that it
goes on after counts against the size of the message. -/
def readHeaders (reader : σ) (headers : Headers) (totalBytes : ℕ) :
    Except AmiError (Option Headers) × σ :=
  match readline reader with
  | (.error _, reader) => (.error (.protocol "AMI sent an overlong line"), reader)
  | (.ok line, reader) =>
      match _h : takeLine headers totalBytes line with
      | .stop result => (result, reader)
      | .more headers totalBytes => readHeaders reader headers totalBytes
termination_by amiMaxMessageBytes - totalBytes
decreasing_by
  have hmore := takeLine_more _h
  omega

/-- `read_ami_message`: the headers, or `none` at a clean end. -/
def readAmiMessage (reader : σ) : Except AmiError (Option Headers) × σ :=
  readHeaders readline reader [] 0

/-- The reader after some calls of `read_ami_message`. -/
def afterCalls (calls : ℕ) (reader : σ) : σ :=
  (fun reader => (readAmiMessage readline reader).2)^[calls] reader

variable {readline} {rest : σ → List UInt8} (hlines : ReadsLines newline readline rest)
variable {headers headers' : Headers} {totalBytes totalBytes' : ℕ} {line after : List UInt8}
include hlines

theorem readHeaders_stop {reader : σ} {result : Except AmiError (Option Headers)}
    (hnext : nextLine newline (rest reader) = (line, after))
    (htake : takeLine headers totalBytes line = .stop result) :
    ∃ reader', readHeaders readline reader headers totalBytes = (result, reader') ∧
      rest reader' = after := by
  obtain ⟨reader', hread, hafter⟩ := hlines.eq_of_rest hnext
  refine ⟨reader', ?_, hafter⟩
  rw [readHeaders, hread]
  dsimp only
  split
  · rename_i result' hresult
    obtain rfl := LineOutcome.stop.inj (hresult.symm.trans htake)
    rfl
  · rename_i hmore
    cases hmore.symm.trans htake

theorem readHeaders_more {reader : σ} (hnext : nextLine newline (rest reader) = (line, after))
    (htake : takeLine headers totalBytes line = .more headers' totalBytes') :
    ∃ reader', readHeaders readline reader headers totalBytes =
        readHeaders readline reader' headers' totalBytes' ∧ rest reader' = after := by
  obtain ⟨reader', hread, hafter⟩ := hlines.eq_of_rest hnext
  refine ⟨reader', ?_, hafter⟩
  rw [readHeaders, hread]
  dsimp only
  split
  · rename_i hstop
    cases hstop.symm.trans htake
  · rename_i hmore
    obtain ⟨rfl, rfl⟩ := LineOutcome.more.inj (hmore.symm.trans htake)
    rfl

/-- The rule for the loop: a line stops it, or leaves it with more headers and less budget. -/
theorem readHeaders_induction {motive : σ → Headers → ℕ → Prop}
    (stop : ∀ reader headers totalBytes line after result reader',
      nextLine newline (rest reader) = (line, after) →
      takeLine headers totalBytes line = .stop result →
      readHeaders readline reader headers totalBytes = (result, reader') → rest reader' = after →
      motive reader headers totalBytes)
    (more : ∀ reader headers totalBytes line after headers' totalBytes' reader',
      nextLine newline (rest reader) = (line, after) →
      takeLine headers totalBytes line = .more headers' totalBytes' →
      readHeaders readline reader headers totalBytes =
        readHeaders readline reader' headers' totalBytes' → rest reader' = after →
      motive reader' headers' totalBytes' → motive reader headers totalBytes)
    (reader : σ) (headers : Headers) (totalBytes : ℕ) : motive reader headers totalBytes := by
  induction hbudget : amiMaxMessageBytes - totalBytes using Nat.strong_induction_on
    generalizing reader headers totalBytes with
  | _ budget ih =>
      rcases hnext : nextLine newline (rest reader) with ⟨line, after⟩
      cases htake : takeLine headers totalBytes line with
      | stop result =>
          obtain ⟨reader', hread, hafter⟩ := readHeaders_stop hlines hnext htake
          exact stop _ _ _ _ _ _ _ hnext htake hread hafter
      | more headers' totalBytes' =>
          obtain ⟨reader', hread, hafter⟩ := readHeaders_more hlines hnext htake
          obtain ⟨hpos, hsum, hle, -⟩ := takeLine_more htake
          exact more _ _ _ _ _ _ _ _ hnext htake hread hafter (ih _ (by omega) _ _ _ rfl)

/-- A call stops in the line that exceeds the size of a message, or before. -/
theorem exists_consumed (reader : σ) (headers : Headers) (totalBytes : ℕ)
    (htotal : totalBytes ≤ amiMaxMessageBytes) :
    ∃ before line, rest reader =
        before ++ line ++ rest (readHeaders readline reader headers totalBytes).2 ∧
      totalBytes + before.length ≤ amiMaxMessageBytes ∧ IsLine newline line := by
  induction reader, headers, totalBytes using readHeaders_induction hlines with
  | stop reader headers totalBytes line after result reader' hnext htake hread hafter =>
      have hline := isLine_nextLine newline (rest reader)
      rw [hnext] at hline
      refine ⟨[], line, ?_, htotal, hline⟩
      rw [hread, hafter, List.nil_append]
      exact eq_append_of_nextLine hnext
  | more reader headers totalBytes line after headers' totalBytes' reader' hnext htake hread
      hafter ih =>
      obtain ⟨-, rfl, hle, -⟩ := takeLine_more htake
      obtain ⟨before, last, hcut, hbound, hlast⟩ := ih hle
      refine ⟨line ++ before, last, ?_, ?_, hlast⟩
      · rw [eq_append_of_nextLine hnext, ← hafter, hcut, hread]
        simp only [List.append_assoc]
      · rw [List.length_append]
        omega

/-- A message is not empty. -/
theorem length_rest_lt (reader : σ) (headers : Headers) (totalBytes : ℕ) {message : Headers}
    (h : (readHeaders readline reader headers totalBytes).1 = .ok (some message)) :
    (rest (readHeaders readline reader headers totalBytes).2).length < (rest reader).length := by
  induction reader, headers, totalBytes using readHeaders_induction hlines with
  | stop reader headers totalBytes line after result reader' hnext htake hread hafter =>
      have hne : line ≠ [] := by
        rintro rfl
        rw [hread] at h
        simp only [takeLine, if_true] at htake
        split_ifs at htake
        · rw [← LineOutcome.stop.inj htake] at h
          cases h
        · rw [← LineOutcome.stop.inj htake] at h
          cases h
      have hpos := List.length_pos_iff.mpr hne
      rw [hread, hafter, eq_append_of_nextLine hnext, List.length_append]
      omega
  | more reader headers totalBytes line after headers' totalBytes' reader' hnext htake hread
      hafter ih =>
      rw [hread] at h ⊢
      have hlater := ih h
      rw [hafter] at hlater
      rw [eq_append_of_nextLine hnext, List.length_append]
      omega

theorem readHeaders_end {reader : σ} (hend : rest reader = []) (hne : headers ≠ []) :
    ∃ reader', readHeaders readline reader headers totalBytes =
      (.error (.connection "AMI connection ended during a message"), reader') := by
  have hnext : nextLine newline (rest reader) = ([], []) := by
    rw [hend]
    rfl
  have htake : takeLine headers totalBytes [] =
      .stop (.error (.connection "AMI connection ended during a message")) := by
    rw [takeLine, if_pos rfl, if_pos hne]
  obtain ⟨reader', hread, -⟩ := readHeaders_stop hlines hnext htake
  exact ⟨reader', hread⟩

/-- The stream ends inside of a message: in a line, or after one. -/
theorem readHeaders_cut {reader : σ} (hopen : newline ∉ rest reader)
    (hinside : headers ≠ [] ∨ rest reader ≠ []) :
    ∃ e, (readHeaders readline reader headers totalBytes).1 = .error e := by
  by_cases hend : rest reader = []
  · obtain ⟨reader', hread⟩ := @readHeaders_end _ _ _ hlines headers totalBytes _ hend
      (hinside.resolve_right (not_not.mpr hend))
    exact ⟨_, congrArg Prod.fst hread⟩
  · have hnext := nextLine_of_notMem hopen
    rcases @takeLine_open headers totalBytes _ hend hopen with
      ⟨e, htake⟩ | ⟨headers', totalBytes', htake⟩
    · obtain ⟨reader', hread, -⟩ := readHeaders_stop hlines hnext htake
      exact ⟨e, congrArg Prod.fst hread⟩
    · -- the line counts as a header, and nothing follows it
      obtain ⟨reader', hread, hafter⟩ := readHeaders_more hlines hnext htake
      obtain ⟨-, -, -, hne⟩ := takeLine_more htake
      obtain ⟨reader'', hlast⟩ := @readHeaders_end _ _ _ hlines headers' totalBytes' _ hafter hne
      exact ⟨_, congrArg Prod.fst (hread.trans hlast)⟩

/-- The lines of a message are read into its headers, and no more. -/
theorem readHeaders_lines {lines : List AmiHeader} {blank : LineEnd} {reader : σ}
    (hfit : LinesFit headers totalBytes lines blank)
    (hrest : rest reader = lines.flatMap AmiHeader.bytes ++ blank.bytes ++ after) :
    ∃ reader', readHeaders readline reader headers totalBytes =
        (.ok (some (headers ++ lines.map fun line => (line.name, line.value))), reader') ∧
      rest reader' = after := by
  induction lines generalizing reader headers totalBytes with
  | nil =>
      have hnext : nextLine newline (rest reader) = (blank.bytes, after) := by
        rw [hrest]
        exact nextLine_blank blank after
      have hfits := hfit.fits
      have htake := @takeLine_blank headers totalBytes blank (by simpa using hfits)
      rw [List.map_nil, List.append_nil]
      exact readHeaders_stop hlines hnext htake
  | cons header lines ih =>
      have hnext : nextLine newline (rest reader) =
          (header.bytes, lines.flatMap AmiHeader.bytes ++ blank.bytes ++ after) := by
        rw [hrest, List.flatMap_cons, List.append_assoc, List.append_assoc, nextLine_header,
          List.append_assoc]
      obtain ⟨htake, hfit'⟩ := hfit.takeLine
      obtain ⟨reader₁, hread, hafter⟩ := readHeaders_more hlines hnext htake
      obtain ⟨reader', hlast, hlater⟩ := ih hfit' hafter
      refine ⟨reader', ?_, hlater⟩
      rw [hread, hlast, List.map_cons, List.append_assoc]
      rfl

/-- A message that is cut anywhere is an error. -/
theorem readHeaders_inside {lines : List AmiHeader} {blank : LineEnd} {reader : σ}
    (hfit : LinesFit headers totalBytes lines blank)
    (hcut : rest reader <+: lines.flatMap AmiHeader.bytes ++ blank.bytes)
    (hstrict : rest reader ≠ lines.flatMap AmiHeader.bytes ++ blank.bytes)
    (hinside : headers ≠ [] ∨ rest reader ≠ []) :
    ∃ e, (readHeaders readline reader headers totalBytes).1 = .error e := by
  induction lines generalizing reader headers totalBytes with
  | nil =>
      obtain ⟨body, hbody, hblank⟩ := exists_blank_body blank
      rw [List.flatMap_nil, List.nil_append, hblank] at hcut hstrict
      rcases prefix_cases hcut hbody with hopen | ⟨cut, hwhole, hend⟩
      · exact readHeaders_cut hlines hopen hinside
      · rw [List.prefix_nil] at hend
        rw [hwhole, hend] at hstrict
        exact absurd rfl hstrict
  | cons header lines ih =>
      have hsplit : (header :: lines).flatMap AmiHeader.bytes ++ blank.bytes =
          header.body ++ newline :: (lines.flatMap AmiHeader.bytes ++ blank.bytes) := by
        rw [List.flatMap_cons, header.bytes_eq, List.append_assoc, List.append_assoc]
        rfl
      rw [hsplit] at hcut hstrict
      rcases prefix_cases hcut header.newline_notMem_body with hopen | ⟨cut, hwhole, hlater⟩
      · exact readHeaders_cut hlines hopen hinside
      · -- the line was read; the cut is in what follows it
        have hnext : nextLine newline (rest reader) = (header.bytes, cut) := by
          rw [hwhole, List.append_cons, ← header.bytes_eq, nextLine_header]
        obtain ⟨htake, hfit'⟩ := hfit.takeLine
        obtain ⟨reader', hread, hafter⟩ := readHeaders_more hlines hnext htake
        rw [hread]
        refine ih hfit' (hafter ▸ hlater) ?_ (Or.inl (List.concat_ne_nil _ _))
        rintro hsame
        rw [hwhole, ← hafter, hsame] at hstrict
        exact hstrict rfl

/-! ### Calls -/

/-- A call reads the next message. -/
theorem readAmiMessage_block {block : AmiBlock} {reader : σ}
    (hrest : rest reader = block.bytes ++ after) :
    ∃ reader', readAmiMessage readline reader = (.ok (some block.headers), reader') ∧
      rest reader' = after :=
  readHeaders_lines hlines block.linesFit hrest

/-- A call at the end of the stream. -/
theorem readAmiMessage_end {reader : σ} (hend : rest reader = []) :
    (readAmiMessage readline reader).1 = .ok none := by
  have hnext : nextLine newline (rest reader) = ([], []) := by
    rw [hend]
    rfl
  have htake : takeLine [] 0 [] = .stop (.ok none) := by simp [takeLine]
  obtain ⟨reader', hread, -⟩ := readHeaders_stop hlines hnext htake
  exact congrArg Prod.fst hread

/-- Every call takes one message from the stream. -/
theorem rest_afterCalls {messages : List AmiBlock} {reader : σ}
    (hrest : rest reader = encode messages ++ after) {calls : ℕ}
    (hcalls : calls ≤ messages.length) :
    rest (afterCalls readline calls reader) = encode (messages.drop calls) ++ after := by
  induction calls with
  | zero => exact hrest
  | succ calls ih =>
      have hbefore := ih (by omega)
      rw [List.drop_eq_getElem_cons (by omega), encode, List.flatMap_cons, List.append_assoc]
        at hbefore
      obtain ⟨reader', hread, hafter⟩ := readAmiMessage_block hlines hbefore
      rw [afterCalls, Function.iterate_succ_apply', ← afterCalls, hread, hafter]
      rfl

theorem readAmiMessage_afterCalls {messages : List AmiBlock} {reader : σ}
    (hrest : rest reader = encode messages ++ after) {calls : ℕ}
    (hcalls : calls < messages.length) :
    (readAmiMessage readline (afterCalls readline calls reader)).1 =
      .ok (some messages[calls].headers) := by
  have hbefore := rest_afterCalls hlines hrest hcalls.le
  rw [List.drop_eq_getElem_cons hcalls, encode, List.flatMap_cons, List.append_assoc] at hbefore
  obtain ⟨reader', hread, -⟩ := readAmiMessage_block hlines hbefore
  exact congrArg Prod.fst hread

end Messages

/-- **Messages.** Calls read the messages of a stream one by one, and then report its end; a
stream that is cut ends between two messages, or inside of one, which is an error after the whole
ones. Whatever the stream, a call stops after at most the bytes of the longest message and one
line. -/
theorem ami_messages {σ : Type*} (readline : σ → Except OverlongLine (List UInt8) × σ)
    (rest : σ → List UInt8) (hlines : ReadsLines newline readline rest) :
    (∀ messages reader, rest reader = encode messages → ∀ calls ≤ messages.length,
      rest (afterCalls readline calls reader) = encode (messages.drop calls) ∧
        (readAmiMessage readline (afterCalls readline calls reader)).1 =
          .ok (messages[calls]?.map AmiBlock.headers)) ∧
    (∀ messages stream, stream <+: encode messages →
      (∃ whole ≤ messages.length, stream = encode (messages.take whole)) ∨
        ∃ whole, EndsInside messages whole stream) ∧
    (∀ messages stream whole reader, EndsInside messages whole stream → rest reader = stream →
      (∀ calls < whole, (readAmiMessage readline (afterCalls readline calls reader)).1 =
        .ok (messages[calls]?.map AmiBlock.headers)) ∧
      ∃ e, (readAmiMessage readline (afterCalls readline whole reader)).1 = .error e) ∧
    ∀ reader, ∃ before line,
      rest reader = before ++ line ++ rest (readAmiMessage readline reader).2 ∧
        before.length ≤ amiMaxMessageBytes ∧ IsLine newline line := by
  refine ⟨?_, fun messages stream => endsInside_of_cut, ?_, ?_⟩
  · intro messages reader hrest calls hcalls
    rw [← List.append_nil (encode messages)] at hrest
    have hafter := rest_afterCalls hlines hrest hcalls
    rw [List.append_nil] at hafter
    refine ⟨hafter, ?_⟩
    by_cases hlast : calls < messages.length
    · rw [readAmiMessage_afterCalls hlines hrest hlast, List.getElem?_eq_getElem hlast]
      rfl
    · obtain rfl : calls = messages.length := by omega
      rw [List.drop_length] at hafter
      rw [readAmiMessage_end hlines hafter, List.getElem?_eq_none le_rfl]
      rfl
  · rintro messages stream whole reader ⟨block, inside, hblock, hne, hcut, hstrict, rfl⟩ hrest
    obtain ⟨hwhole, rfl⟩ := List.getElem?_eq_some_iff.mp hblock
    have hlength : (messages.take whole).length = whole := by
      rw [List.length_take]
      omega
    constructor
    · intro calls hcalls
      rw [readAmiMessage_afterCalls hlines hrest (hcalls.trans_le hlength.ge), List.getElem_take,
        List.getElem?_eq_getElem (hcalls.trans hwhole)]
      rfl
    · have hinside := rest_afterCalls hlines hrest (hlength.ge)
      have hrest' : rest (afterCalls readline whole reader) = inside := by
        rw [hinside, List.drop_of_length_le hlength.le]
        rfl
      rw [← hrest'] at hne hcut hstrict
      exact readHeaders_inside hlines messages[whole].linesFit hcut hstrict (Or.inr hne)
  · intro reader
    obtain ⟨before, line, hrest, hbound, hline⟩ :=
      exists_consumed hlines reader [] 0 (Nat.zero_le _)
    exact ⟨before, line, hrest, by omega, hline⟩

def responseHeader : AmiHeader where
  name := "Response"
  value := "Success"
  lineEnd := .crlf
  name_ne := by decide
  name_trimmed := by decide +kernel
  name_plain := by decide
  value_trimmed := by decide +kernel
  value_plain := by decide

def messageHeader : AmiHeader where
  name := "Message"
  value := ""
  lineEnd := .lf
  name_ne := by decide
  name_trimmed := by decide +kernel
  name_plain := by decide
  value_trimmed := by decide +kernel
  value_plain := by decide

/-- A message whose lines end in both ways, with an empty value. -/
def loginAnswer : AmiBlock where
  lines := [responseHeader, messageHeader]
  blank := .crlf
  distinct := by decide
  count_le := by decide
  lines_fit := by decide +kernel
  fits := by decide +kernel

/-- The message arrives in two chunks; without its last byte it is an error. -/
theorem ami_messages_loginAnswer :
    let readline : Stream UInt8 → Except OverlongLine (List UInt8) × Stream UInt8 :=
      Stream.readline newline
    let reader := Stream.ofChunks
      ["Response: Suc".toUTF8.toList, "cess\r\nMessage: \n\r\n".toUTF8.toList]
    (readAmiMessage readline (afterCalls readline 0 reader)).1 =
        .ok (some [("Response", "Success"), ("Message", "")]) ∧
      (readAmiMessage readline (afterCalls readline 1 reader)).1 = .ok none ∧
      (∃ e, (readAmiMessage readline (afterCalls readline 0
        (Stream.ofChunks ["Response: Success\r\nMessage: \n\r".toUTF8.toList]))).1 = .error e) ∧
      ∃ before line, reader.rest =
          before ++ line ++ (readAmiMessage readline reader).2.rest ∧
        before.length ≤ amiMaxMessageBytes ∧ IsLine newline line := by
  intro readline reader
  obtain ⟨hwhole, -, hcut, hbound⟩ :=
    ami_messages readline Stream.rest (Stream.readsLines newline)
  have hrest : reader.rest = encode [loginAnswer] := by decide +kernel
  have hinside : EndsInside [loginAnswer] 0
      "Response: Success\r\nMessage: \n\r".toUTF8.toList := by
    refine ⟨loginAnswer, _, rfl, ?_, ?_, ?_, rfl⟩
    · decide +kernel
    · decide +kernel
    · decide +kernel
  refine ⟨(hwhole _ _ hrest 0 (Nat.zero_le _)).2, (hwhole _ _ hrest 1 le_rfl).2, ?_, hbound reader⟩
  exact (hcut _ _ _ _ hinside (by rw [Stream.rest_ofChunks, List.flatten_singleton])).2

/-! ## A session -/

/-- `_header`: the first value under a name, in upper or lower case. -/
def header (message : Headers) (name : String) : Option String :=
  (message.find? fun f => Text.lower f.1.toList = Text.lower name.toList).map Prod.snd

/-- The answer to the login. -/
def loginResult (response : String) : Except AmiError Unit :=
  if Text.lower response.toList ≠ "success".toList then
    .error (.authentication "AMI authentication was rejected")
  else .ok ()

def isRtcpEvent (message : Headers) : Bool :=
  header message "Event" = some "RTCPReceived" || header message "Event" = some "RTCPSent"

section Session

variable {σ : Type*} (readline : σ → Except OverlongLine (List UInt8) × σ)

/-- The loop of `_authenticate`, over at most `n` messages: messages before the response are
skipped. -/
def awaitResponse : ℕ → σ → Option (Except AmiError Unit) × σ
  | 0, reader => (none, reader)
  | n + 1, reader =>
      match readAmiMessage readline reader with
      | (.error e, reader) => (some (.error e), reader)
      | (.ok none, reader) =>
          (some (.error (.connection "AMI connection ended during authentication")), reader)
      | (.ok (some message), reader) =>
          match header message "Response" with
          | none => awaitResponse n reader
          | some response => (some (loginResult response), reader)

/-- `_events`, over at most `n` messages: the events, and how the stream ended after them. -/
def events : ℕ → σ → List Headers × Option (Except AmiError Unit)
  | 0, _ => ([], none)
  | n + 1, reader =>
      match readAmiMessage readline reader with
      | (.error e, _) => ([], some (.error e))
      | (.ok none, _) => ([], some (.ok ()))
      | (.ok (some message), reader) =>
          let (later, ended) := events n reader
          (if isRtcpEvent message then message :: later else later, ended)

variable {readline} {rest : σ → List UInt8} (hlines : ReadsLines newline readline rest)
include hlines

theorem length_rest_of_message {reader reader' : σ} {message : Headers}
    (h : readAmiMessage readline reader = (.ok (some message), reader')) :
    (rest reader').length < (rest reader).length := by
  have hless := length_rest_lt hlines reader [] 0 (congrArg Prod.fst h)
  rwa [← readAmiMessage, h] at hless

/-- The login is answered, or fails: every message takes bytes from the stream. -/
theorem awaitResponse_isSome {n : ℕ} {reader : σ} (h : (rest reader).length < n) :
    (awaitResponse readline n reader).1.isSome = true := by
  induction n generalizing reader with
  | zero => omega
  | succ n ih =>
      simp only [awaitResponse]
      split
      · rfl
      · rfl
      · rename_i hread
        have hless := length_rest_of_message hlines hread
        split
        · exact ih (by omega)
        · rfl

theorem events_isSome {n : ℕ} {reader : σ} (h : (rest reader).length < n) :
    (events readline n reader).2.isSome = true := by
  induction n generalizing reader with
  | zero => omega
  | succ n ih =>
      simp only [events]
      split
      · rfl
      · rfl
      · rename_i hread
        have hless := length_rest_of_message hlines hread
        exact ih (by omega)

/-- The first response answers the login. -/
theorem awaitResponse_encode {skipped later : List AmiBlock} {answer : AmiBlock}
    {response : String} (hskipped : ∀ block ∈ skipped, header block.headers "Response" = none)
    (hanswer : header answer.headers "Response" = some response) {n : ℕ} {reader : σ}
    (hrest : rest reader = encode (skipped ++ answer :: later)) (hn : skipped.length < n) :
    ∃ reader', awaitResponse readline n reader = (some (loginResult response), reader') ∧
      rest reader' = encode later := by
  induction skipped generalizing n reader with
  | nil =>
      obtain ⟨n, rfl⟩ := Nat.exists_eq_add_of_lt hn
      rw [List.nil_append, encode, List.flatMap_cons] at hrest
      obtain ⟨reader', hread, hafter⟩ := readAmiMessage_block hlines hrest
      refine ⟨reader', ?_, hafter⟩
      simp only [awaitResponse, hread, hanswer]
  | cons block skipped ih =>
      obtain ⟨n, rfl⟩ := Nat.exists_eq_add_of_lt hn
      rw [List.cons_append, encode, List.flatMap_cons] at hrest
      obtain ⟨reader₁, hread, hafter⟩ := readAmiMessage_block hlines hrest
      obtain ⟨reader', hlast, hlater⟩ :=
        ih (n := (block :: skipped).length + n)
          (fun b hb => hskipped b (List.mem_cons_of_mem block hb)) hafter (by simp; omega)
      refine ⟨reader', ?_, hlater⟩
      simp only [awaitResponse, hread, hskipped block List.mem_cons_self]
      exact hlast

/-- The events are the RTCP events that were sent, in their order. -/
theorem events_encode {messages : List AmiBlock} {n : ℕ} {reader : σ}
    (hrest : rest reader = encode messages) (hn : messages.length < n) :
    events readline n reader =
      ((messages.map AmiBlock.headers).filter isRtcpEvent, some (.ok ())) := by
  induction messages generalizing n reader with
  | nil =>
      obtain ⟨n, rfl⟩ := Nat.exists_eq_add_of_lt hn
      have hend := readAmiMessage_end hlines hrest
      rw [events]
      split
      · rename_i hread
        rw [hread] at hend
        cases hend
      · rfl
      · rename_i hread
        rw [hread] at hend
        cases hend
  | cons block messages ih =>
      obtain ⟨n, rfl⟩ := Nat.exists_eq_add_of_lt hn
      rw [encode, List.flatMap_cons] at hrest
      obtain ⟨reader', hread, hafter⟩ := readAmiMessage_block hlines hrest
      have hlater := ih (n := (block :: messages).length + n) hafter (by simp; omega)
      simp only [events, hread, hlater, List.map_cons, List.filter_cons]

/-- A session that is logged in sees the RTCP events after the response. -/
theorem session_events {skipped later : List AmiBlock} {answer : AmiBlock} {response : String}
    (hskipped : ∀ block ∈ skipped, header block.headers "Response" = none)
    (hanswer : header answer.headers "Response" = some response)
    (hsuccess : loginResult response = .ok ()) {n : ℕ} {reader : σ}
    (hrest : rest reader = encode (skipped ++ answer :: later))
    (hn : skipped.length + later.length < n) :
    ∃ reader', awaitResponse readline n reader = (some (.ok ()), reader') ∧
      events readline n reader' =
        ((later.map AmiBlock.headers).filter isRtcpEvent, some (.ok ())) := by
  obtain ⟨reader', hanswered, hlater⟩ :=
    awaitResponse_encode (n := n) hlines hskipped hanswer hrest (by omega)
  rw [hsuccess] at hanswered
  exact ⟨reader', hanswered, events_encode hlines hlater (by omega)⟩

end Session

end VoxBench.Telephony
