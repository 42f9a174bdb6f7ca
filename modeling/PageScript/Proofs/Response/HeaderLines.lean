import PageScript.Response
import Mathlib.Data.List.Basic
import Mathlib.Tactic.Lemma
/-!
# The lines of a header

A header is sent as its lines, each with a line end behind it, and an empty line.  The texts that a
header is given are part of its lines as they are, so that a line break in one of them is a line
break in the middle of a line.  Where there is none, whoever reads what is sent finds the lines of the
header up to the first empty one, and the body behind it.
-/

namespace PageScript

/-! ## Line breaks -/

namespace Text

/-- A text without carriage returns and line feeds. -/
def IsUnbroken (s : String) : Prop := '\r' ∉ s.toList ∧ '\n' ∉ s.toList

instance (s : String) : Decidable (IsUnbroken s) := inferInstanceAs (Decidable (_ ∧ _))

variable {s t : String}

@[simp] lemma isUnbroken_append : IsUnbroken (s ++ t) ↔ IsUnbroken s ∧ IsUnbroken t := by
  simp only [IsUnbroken, String.toList_append, List.mem_append]
  tauto

@[simp] lemma isUnbroken_toString (n : Nat) : IsUnbroken (toString n) := by
  have hdigit {c : Char} (hc : c ∈ (toString n).toList) : c.isDigit := by
    rw [Nat.toString_eq_repr, Nat.toList_repr] at hc
    exact Nat.isDigit_of_mem_toDigits (by decide) (by decide) hc
  exact ⟨fun h => absurd (hdigit h) (by decide), fun h => absurd (hdigit h) (by decide)⟩

/-- A part that is left out has no line break. -/
@[simp] lemma isUnbroken_elim {α : Type} {part : Option α} {f : α → String} :
    IsUnbroken (part.elim "" f) ↔ ∀ a ∈ part.toList, IsUnbroken (f a) := by
  cases part with
  | none => simp [IsUnbroken]
  | some a => simp

end Text

open Text

/-! ## Bytes -/

namespace Header

/-- The byte of a character, which is a question mark if it has none. -/
def byte (c : Char) : UInt8 := if c.toNat < 256 then UInt8.ofNat c.toNat else 63

lemma toList_latin1 (s : List Char) : (latin1 s).data.toList = s.map byte := rfl

lemma toNat_byte {c : Char} (h : byte c ≠ 63) : (byte c).toNat = c.toNat := by
  unfold byte at h ⊢
  split at h
  · next hlt =>
    rw [if_pos hlt, UInt8.toNat_ofNat', Nat.mod_eq_of_lt hlt]
  · exact absurd rfl h

/-- A byte other than the question mark is that of one character only. -/
lemma byte_mem_map {c : Char} {s : List Char} (h : byte c ≠ 63) : byte c ∈ s.map byte ↔ c ∈ s := by
  refine ⟨fun hmem => ?_, List.mem_map_of_mem⟩
  obtain ⟨d, hd, heq⟩ := List.mem_map.1 hmem
  have hnat : d.toNat = c.toNat := by
    rw [← toNat_byte h, ← heq, toNat_byte (heq ▸ h)]
  exact Char.toNat_inj.1 hnat ▸ hd

/-- A line break among the bytes of a text is a line break of the text. -/
lemma isUnbroken_iff (s : String) :
    IsUnbroken s ↔ 13 ∉ s.toList.map byte ∧ 10 ∉ s.toList.map byte := by
  rw [IsUnbroken, ← byte_mem_map (c := '\r') (by decide), ← byte_mem_map (c := '\n') (by decide)]
  rfl

end Header

/-! ## What a header is made of -/

/-- The texts that a cookie is given. -/
def Cookie.texts (c : Cookie) : List String :=
  c.name :: c.value :: (c.domain.toList ++ c.path.toList)

lemma Cookie.isUnbroken_line (c : Cookie) : IsUnbroken c.line ↔ ∀ t ∈ c.texts, IsUnbroken t := by
  have hliterals : IsUnbroken "Set-Cookie: " ∧ IsUnbroken "=\"" ∧ IsUnbroken "\"" ∧
      IsUnbroken "; Domain=" ∧ IsUnbroken "; Path=" ∧ IsUnbroken "; Max-Age=" ∧
      IsUnbroken (if c.httpOnly then "; HttpOnly" else "") := by
    refine ⟨by decide, by decide, by decide, by decide, by decide, by decide, ?_⟩
    cases c.httpOnly <;> decide
  obtain ⟨hname, hequals, hquote, hdomain, hpath, hage, honly⟩ := hliterals
  unfold line texts
  simp only [isUnbroken_append, isUnbroken_elim, isUnbroken_toString, List.forall_mem_cons,
    List.forall_mem_append, hname, hequals, hquote, hdomain, hpath, hage, honly, true_and, and_true,
    implies_true, and_assoc]

namespace Header

/-- The texts that a header is given, but for its encoding. -/
def texts (h : Header) : List String :=
  h.reason :: h.mime :: h.cookies.flatMap Cookie.texts

variable {h : Header}

/-- A line of a header is broken only by a text that the header is given. -/
lemma isUnbroken_lines (hencoding : IsUnbroken h.encoding) :
    (∀ line ∈ h.lines, IsUnbroken line) ↔ ∀ t ∈ h.texts, IsUnbroken t := by
  have hcharset : IsUnbroken
      (if "text/".toList.isPrefixOf h.mime.toList then "; charset=" ++ h.encoding else "") := by
    split
    · exact isUnbroken_append.2 ⟨by decide, hencoding⟩
    · decide
  have hstatus : IsUnbroken "HTTP/1.1 " ∧ IsUnbroken " " ∧ IsUnbroken "Content-Type: " ∧
      IsUnbroken "Content-Length: " := by decide
  obtain ⟨hversion, hspace, htype, hlength⟩ := hstatus
  simp only [lines, texts, List.forall_mem_cons, List.forall_mem_append, List.forall_mem_map,
    List.not_mem_nil, false_imp_iff, List.forall_mem_flatMap, isUnbroken_append,
    isUnbroken_toString, hversion, hspace, htype, hlength, hcharset, Cookie.isUnbroken_line,
    true_and, and_true, implies_true, and_assoc]

/-- Every line of a header begins with a word of its own. -/
lemma ne_nil_of_mem_lines {line : String} (hline : line ∈ h.lines) : line.toList ≠ [] := by
  simp only [lines, List.mem_append, List.mem_cons, List.not_mem_nil, or_false, List.mem_map] at hline
  rcases hline with ((rfl | rfl) | ⟨n, -, rfl⟩) | ⟨c, -, rfl⟩
  · simp
  · simp
  · simp
  · unfold Cookie.line
    simp [String.append_assoc]

/-- The bytes of a header are those of its lines, each with a line end, and a line end. -/
lemma toList_bytes (h : Header) :
    h.bytes.data.toList =
      (h.lines.flatMap fun line => line.toList.map byte ++ [13, 10]) ++ [13, 10] := by
  have hend : "\x0d\n".toList.map byte = [13, 10] := by decide
  simp only [bytes, toList_latin1, text, String.toList_append, String.toList_join, List.map_append,
    List.map_flatMap, List.flatMap_map, hend]

end Header

/-! ## What a client reads -/

namespace Response

/-- What a client reads from here on, where `line` holds, reversed, what it has read of a line: the
lines up to the first empty one, and the bytes behind that.  A line ends where a carriage return
and a line feed follow. -/
def splitFrom (line : List UInt8) : List UInt8 → Option (List (List UInt8) × List UInt8)
  | 13 :: 10 :: rest =>
    if line.isEmpty then some ([], rest)
    else (splitFrom [] rest).map fun (lines, body) => (line.reverse :: lines, body)
  | b :: rest => splitFrom (b :: line) rest
  | [] => none

/-- The lines of the header and the body of a response, as a client reads its bytes. -/
def split? (sent : List UInt8) : Option (List (List UInt8) × List UInt8) := splitFrom [] sent

variable {run line rest body : List UInt8}

lemma splitFrom_line (hrun : 13 ∉ run) (hne : run.reverse ++ line ≠ []) :
    splitFrom line (run ++ 13 :: 10 :: rest) =
      (splitFrom [] rest).map fun (lines, body) => ((run.reverse ++ line).reverse :: lines, body) := by
  induction run generalizing line with
  | nil =>
    rw [List.nil_append, splitFrom, if_neg (by simpa using hne)]
    rfl
  | cons b run ih =>
    obtain ⟨hb, hrun⟩ := not_or.1 (List.mem_cons.not.1 hrun)
    rw [List.cons_append, splitFrom, ih hrun (by simp)]
    · simp
    · rintro rest rfl
      exact absurd rfl hb

/-- Where lines are not empty and have no carriage return, the first empty line is the one behind
them. -/
lemma split?_lines {lines : List (List UInt8)} (h : ∀ l ∈ lines, l ≠ [] ∧ 13 ∉ l)
    (body : List UInt8) :
    split? ((lines.flatMap fun l => l ++ [13, 10]) ++ 13 :: 10 :: body) = some (lines, body) := by
  unfold split?
  induction lines with
  | nil => rfl
  | cons l lines ih =>
    obtain ⟨⟨hne, hl⟩, hlines⟩ := List.forall_mem_cons.1 h
    rw [List.flatMap_cons, List.append_assoc, List.append_assoc, List.cons_append, List.cons_append,
      List.nil_append, splitFrom_line hl (by simpa using hne), ih hlines]
    simp

end Response

/-- A client finds the lines of a header without line breaks, and what is sent behind them. -/
lemma Header.split?_bytes {h : Header} (hlines : ∀ line ∈ h.lines, IsUnbroken line)
    (body : List UInt8) :
    Response.split? (h.bytes.data.toList ++ body) =
      some (h.lines.map fun line => line.toList.map byte, body) := by
  have hbytes : ∀ l ∈ h.lines.map fun line => line.toList.map byte, l ≠ [] ∧ 13 ∉ l := by
    intro l hl
    obtain ⟨line, hline, rfl⟩ := List.mem_map.1 hl
    have hunbroken := (isUnbroken_iff line).1 (hlines line hline)
    exact ⟨by simpa using ne_nil_of_mem_lines hline, hunbroken.1⟩
  rw [toList_bytes, List.append_assoc]
  simpa only [List.flatMap_map, List.cons_append, List.nil_append] using
    Response.split?_lines hbytes body

end PageScript
