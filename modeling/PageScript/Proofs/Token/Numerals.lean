import PageScript.Proofs.Document.RoundTrip
import PageScript.Proofs.Value.Coercion
/-!
# Numerals in tags and numerals in strings

A numeral can be written in a tag, where the scanner reads it, or it can be a string, which is read
where a number is wanted.  The two readers decide differently whether it is an integer.  The scanner
tries an integer first and then a double, unless there is a point; a string is read as the one or as
the other according to its characters.  They find the same number, except for an integer that does
not fit in 64 bits.  In a tag that is a double, and as a string it is refused.
-/

namespace PageScript

namespace Decimal.Numeral

variable {m : Numeral}

/-- Whether it is an integer that is written, and it does not fit in 64 bits. -/
def Overflows (m : Numeral) : Prop :=
  m.isWhole ∧ ¬ (-2 ^ 63 ≤ m.wholeValue ∧ m.wholeValue < 2 ^ 63)

instance : Decidable m.Overflows := inferInstanceAs (Decidable (_ ∧ _))

/-! ## What is read -/

/-- As a string, a numeral is refused if it is an integer that does not fit, and at no other time. -/
lemma ofText?_eq_none_iff : Number.ofText? m.text = none ↔ m.Overflows := by
  rw [Number.ofText?, m.isDoubleText_text, Overflows]
  cases hwhole : m.isWhole with
  | true => simp [readInt64?, m.readInt?_text hwhole]
  | false => simp [m.readDouble?_text]

lemma count_point_text (h : m.exponent = none) :
    m.text.count '.' = if m.isWhole then 0 else 1 := by
  have hsign : m.sign.text.count '.' = 0 := by cases m.sign <;> rfl
  have hwhole : m.whole.count '.' = 0 :=
    List.count_eq_zero_of_not_mem (Scan.point_notMem m.isDigit_whole)
  have hfraction : m.fractionText.count '.' = if m.isWhole then 0 else 1 := by
    unfold fractionText isWhole
    cases hds : m.fraction with
    | none => simp [h]
    | some ds =>
      have hzero : ds.count '.' = 0 :=
        List.count_eq_zero_of_not_mem (Scan.point_notMem (m.isDigit_fraction ds hds))
      simp [hzero]
  have hexponent : m.exponentText = [] := by rw [exponentText, h, Option.elim_none]
  rw [text, hexponent, List.append_nil, List.count_append, List.count_append, hsign, hwhole,
    hfraction, Nat.zero_add, Nat.zero_add]

/-- In a tag, a numeral is read as it is from a string, and as a double if that fails. -/
lemma number?_text (h : m.exponent = none) :
    Scan.number? m.text =
      (Number.ofText? m.text).or ((readDouble? m.text).map .double) := by
  have hcount := count_point_text h
  rw [Number.ofText?, m.isDoubleText_text, Scan.number?, hcount]
  cases hwhole : m.isWhole with
  | true =>
    have hpoint : '.' ∉ m.text := List.count_eq_zero.1 (by rw [hcount, hwhole, if_pos rfl])
    simp only [hpoint, List.contains_eq_mem, decide_false, if_true, if_false,
      Bool.not_true, Bool.false_eq_true]
    cases readInt64? m.text <;> rfl
  | false =>
    have hpoint : '.' ∈ m.text := List.count_pos_iff.1 (by rw [hcount, hwhole]; decide)
    simp [hpoint]

/-- It begins as numerals do, and it goes on with digits and points. -/
lemma exists_cons_text (h : m.exponent = none) (hne : m.whole ≠ []) :
    ∃ first body, m.text = first :: body ∧ Scan.startsNumeral (first :: body) ∧
      ∀ c ∈ body, Scan.isNumeralChar c := by
  obtain ⟨d, ds, hwhole⟩ := List.exists_cons_of_ne_nil hne
  obtain ⟨hd, hds⟩ : d.isDigit ∧ ∀ c ∈ ds, c.isDigit :=
    List.forall_mem_cons.1 (hwhole ▸ m.isDigit_whole)
  have hfraction : ∀ c ∈ m.fractionText, Scan.isNumeralChar c := by
    unfold fractionText
    cases hdigits : m.fraction with
    | none => simp
    | some digits =>
      refine List.forall_mem_cons.2 ⟨rfl, fun c hc => ?_⟩
      exact Scan.isNumeralChar_of_isDigit (m.isDigit_fraction digits hdigits c hc)
  have hbody : ∀ c ∈ ds ++ m.fractionText, Scan.isNumeralChar c :=
    List.forall_mem_append.2 ⟨fun c hc => Scan.isNumeralChar_of_isDigit (hds c hc), hfraction⟩
  have htext : m.text = m.sign.text ++ d :: (ds ++ m.fractionText) := by
    rw [text, exponentText, h, hwhole, Option.elim_none, List.append_nil, List.cons_append]
  have hall : ∀ c ∈ d :: (ds ++ m.fractionText), Scan.isNumeralChar c :=
    List.forall_mem_cons.2 ⟨Scan.isNumeralChar_of_isDigit hd, hbody⟩
  cases hsign : m.sign with
  | absent =>
    exact ⟨d, _, by rw [htext, hsign]; rfl, by simp [Scan.startsNumeral_cons, hd], hbody⟩
  | plus =>
    exact ⟨'+', _, by rw [htext, hsign]; rfl, by simp [Scan.startsNumeral_cons, hd], hall⟩
  | minus =>
    exact ⟨'-', _, by rw [htext, hsign]; rfl, by simp [Scan.startsNumeral_cons, hd], hall⟩

end Decimal.Numeral

namespace Scanner

open Decimal Value

variable {s : Scanner} {m : Numeral} {rest : List Char}

/-- A numeral in a tag is one token, which ends where neither a digit nor a point follows.  The
number is the one that the same numeral stands for as a string; but if it is an integer that does not
fit in 64 bits, it is the nearest double, and the string is refused. -/
theorem next_numeral (hexponent : m.exponent = none) (hwhole : m.whole ≠ [])
    (hs : s.StandsAt .tag (m.text ++ rest)) (hrest : rest.head?.any Scan.isNumeralChar = false) :
    ∃ n, s.next = (.ok (.number n), { s with rest, last := some (.number n) }) ∧
      (¬ m.Overflows → coerce (some (.string (String.ofList m.text))) = .ok n) ∧
      (m.Overflows →
        coerce (some (.string (String.ofList m.text))) =
          .error (.notANumber (String.ofList m.text)) ∧
        ∃ x, n = .double x ∧ x.isNegative = m.sign.isNegative ∧
          Double.IsNearest m.size x.magnitude) := by
  obtain ⟨first, body, htext, hstarts, hbody⟩ := Numeral.exists_cons_text hexponent hwhole
  have hnumber := Numeral.number?_text hexponent
  have hnext {n : Number} (hn : Scan.number? m.text = some n) :
      s.next = (.ok (.number n), { s with rest, last := some (.number n) }) := by
    have hread : s.readTag (m.text ++ rest) = (.ok (.number n), rest) := by
      rw [htext] at hn ⊢
      exact readTag_numeral_append hstarts hbody hn hrest
    refine take_eq_ok_iff.1 (take_of_read hs.last_ne ?_)
    rw [read, hs.mode_eq, hs.rest_eq, dropWhile_isGap_of_readTag hread, hread]
  cases hn : Number.ofText? m.text with
  | some n =>
    have hfits : ¬ m.Overflows := by
      rw [← Numeral.ofText?_eq_none_iff, hn]
      exact Option.some_ne_none n
    refine ⟨n, hnext (by rw [hnumber, hn, Option.some_or]), fun _ => ?_, fun h => absurd h hfits⟩
    rw [coerce, String.toList_ofList, hn]
  | none =>
    have hoverflows := Numeral.ofText?_eq_none_iff.1 hn
    obtain ⟨x, hread, hsign, hnearest⟩ := m.exists_readDouble?_text
    refine ⟨.double x, hnext (by rw [hnumber, hn, Option.none_or, hread, Option.map_some]),
      fun h => absurd hoverflows h, fun _ => ⟨?_, x, rfl, hsign, hnearest⟩⟩
    rw [coerce, String.toList_ofList, hn]

/-- `2 ^ 63` after a sign. -/
def edgeNumeral (sign : Sign) : Numeral where
  sign
  whole := "9223372036854775808".toList
  fraction := none
  exponent := none
  isDigit_whole := List.all_eq_true.1 (by decide)
  isDigit_fraction := by simp
  digits_ne_nil := by decide

/-- `2 ^ 63` fits in 64 bits after a minus sign, and does not without one. -/
theorem next_numeral_edgeNumeral :
    (∃ n, ((ofSource "-9223372036854775808 ".toList).setMode .tag).next =
        (.ok (.number n), ⟨"-9223372036854775808 ".toList, [' '], .tag, some (.number n)⟩) ∧
      coerce (some (.string "-9223372036854775808")) = .ok n) ∧
    ∃ x, ((ofSource "9223372036854775808".toList).setMode .tag).next =
        (.ok (.number (.double x)),
          ⟨"9223372036854775808".toList, [], .tag, some (.number (.double x))⟩) ∧
      coerce (some (.string "9223372036854775808")) =
        .error (.notANumber "9223372036854775808") := by
  have hleast : ((ofSource "-9223372036854775808 ".toList).setMode .tag).StandsAt .tag
      ((edgeNumeral .minus).text ++ [' ']) := ⟨rfl, by decide, by decide⟩
  have hbeyond : ((ofSource "9223372036854775808".toList).setMode .tag).StandsAt .tag
      ((edgeNumeral .absent).text ++ []) := ⟨rfl, by decide, by decide⟩
  obtain ⟨n, hnext, hfits, -⟩ := next_numeral rfl (by decide) hleast rfl
  obtain ⟨n', hnext', -, hoverflows⟩ := next_numeral rfl (by decide) hbeyond rfl
  obtain ⟨hrefused, x, rfl, -, -⟩ := hoverflows (by decide)
  exact ⟨⟨n, hnext, hfits (by decide)⟩, x, hnext', hrefused⟩

end Scanner

end PageScript
