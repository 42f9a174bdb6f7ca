import PageScript.Proofs.Decimal.ReadBack
import PageScript.Proofs.Document.Grammar
import PageScript.Proofs.Text.Span
import PageScript.Proofs.Token.Escape
import PageScript.Proofs.Token.Reads
/-!
# Elements are read as they are written

Inside a tag each element is written after a blank and before a blank.  The scanner reads it as the
token that stands for it, whatever the page goes on with behind that blank: a name ends there
and so does a numeral, and an operator is never taken for the sign of what follows it.
-/

namespace PageScript

namespace Text

/-- No digit is a letter. -/
lemma isLetter_of_isDigit {c : Char} (h : c.isDigit) : isLetter c = false := by
  obtain ⟨-, high⟩ := Char.isDigit_iff_toNat.1 h
  have nine : c.toNat ≤ 57 := high
  have value : c.toNat = c.val.toNat := rfl
  have alpha : c.isAlpha = (c.isUpper || c.isLower) := rfl
  have upper : c.isUpper = decide (c.val ≥ 65 ∧ c.val ≤ 90) := rfl
  have lower : c.isLower = (decide (c.val ≥ 97) && decide (c.val ≤ 122)) := rfl
  rw [isLetter, if_pos (by omega), alpha, upper, lower]
  simp only [Bool.or_eq_false_iff, Bool.and_eq_false_iff, decide_eq_false_iff_not, not_and,
    ge_iff_le, UInt32.le_iff_toNat_le, UInt32.reduceToNat]
  omega

/-- No operator is a letter. -/
lemma isLetter_of_isOperator {c : Char} (h : Scan.isOperator c) : isLetter c = false := by
  simp only [Scan.isOperator, Bool.or_eq_true, beq_iff_eq] at h
  rcases h with (((rfl | rfl) | rfl) | rfl) | rfl <;> decide

end Text

/-! ## Numerals -/

namespace Scan

/-- A numeral as the writer forms it: a digit, perhaps after a minus sign, and more digits and
points. -/
inductive IsNumeral : List Char → Prop
  /-- A numeral without a sign. -/
  | unsigned {d : Char} {body : List Char} (hd : d.isDigit) (hbody : ∀ c ∈ body, isNumeralChar c) :
      IsNumeral (d :: body)
  /-- A negative numeral. -/
  | negative {d : Char} {body : List Char} (hd : d.isDigit) (hbody : ∀ c ∈ body, isNumeralChar c) :
      IsNumeral ('-' :: d :: body)

/-- A numeral begins with a digit, or with a sign if a digit comes next. -/
lemma startsNumeral_cons (c : Char) (tail : List Char) :
    startsNumeral (c :: tail) =
      (c.isDigit || ((c == '+' || c == '-') && tail.head?.any Char.isDigit)) := by
  cases tail <;> simp [startsNumeral]

lemma startsNumeral_append {s : List Char} (h : startsNumeral s) (rest : List Char) :
    startsNumeral (s ++ rest) := by
  match s, h with
  | c :: d :: tail, h => exact h
  | [c], h => simpa [startsNumeral_cons] using .inl h

lemma isNumeralChar_of_isDigit {c : Char} (h : c.isDigit) : isNumeralChar c := by
  simp [isNumeralChar, h]

/-- A run of digits with anything numeral behind it is a numeral, and so is its negative. -/
lemma isNumeral_digits {n : Nat} {body : List Char} (hbody : ∀ c ∈ body, isNumeralChar c) :
    IsNumeral (Decimal.digits n ++ body) ∧ IsNumeral ('-' :: (Decimal.digits n ++ body)) := by
  obtain ⟨d, ds, hds⟩ := List.exists_cons_of_ne_nil (Decimal.digits_ne_nil n)
  have hdigits : ∀ c ∈ d :: ds, c.isDigit := by
    intro c hc
    rw [← hds] at hc
    exact Decimal.isDigit_of_mem_digits hc
  have hall : ∀ c ∈ ds ++ body, isNumeralChar c := by
    intro c hc
    rcases List.mem_append.1 hc with hc | hc
    · exact isNumeralChar_of_isDigit (hdigits c (List.mem_cons_of_mem d hc))
    · exact hbody c hc
  rw [hds, List.cons_append]
  exact ⟨.unsigned (hdigits d List.mem_cons_self) hall,
    .negative (hdigits d List.mem_cons_self) hall⟩

lemma isNumeral_intText (z : Int) : IsNumeral (Decimal.intText z) := by
  have h := @isNumeral_digits z.natAbs [] (by simp)
  rw [List.append_nil] at h
  unfold Decimal.intText
  split
  · exact h.2
  · exact h.1

lemma isNumeral_doubleText (x : Double) : IsNumeral (Decimal.doubleText x) := by
  unfold Decimal.doubleText
  generalize Decimal.fewestPlaces x.magnitude = decimal
  obtain ⟨places, n⟩ := decimal
  have hbody : ∀ c ∈ '.' :: Decimal.lastDigits places n, isNumeralChar c := by
    intro c hc
    rcases List.mem_cons.1 hc with rfl | hc
    · rfl
    · exact isNumeralChar_of_isDigit (Decimal.isDigit_of_mem_lastDigits hc)
  have h := @isNumeral_digits (n / 10 ^ places) _ hbody
  rw [Decimal.signedText]
  split
  · exact h.2
  · exact h.1

lemma point_notMem {ds : List Char} (h : ∀ c ∈ ds, c.isDigit) : '.' ∉ ds :=
  fun hmem => absurd (h _ hmem) (by decide)

/-- The text of an integer is a numeral for it. -/
lemma number?_intText (n : Int64) : number? (Decimal.intText n.toInt) = some (.int n) := by
  have digits : '.' ∉ Decimal.digits n.toInt.natAbs :=
    point_notMem fun c hc => Decimal.isDigit_of_mem_digits hc
  have point : '.' ∉ Decimal.intText n.toInt := by
    unfold Decimal.intText
    split
    · simpa using digits
    · exact digits
  rw [number?, List.count_eq_zero_of_not_mem point, if_neg (by decide), if_neg (by simpa using point),
    Decimal.readInt64?_intText]

/-- The text of a double has one point. -/
lemma count_point_doubleText (x : Double) : (Decimal.doubleText x).count '.' = 1 := by
  unfold Decimal.doubleText
  generalize Decimal.fewestPlaces x.magnitude = decimal
  obtain ⟨places, n⟩ := decimal
  have whole : '.' ∉ Decimal.digits (n / 10 ^ places) :=
    point_notMem fun c hc => Decimal.isDigit_of_mem_digits hc
  have fraction : '.' ∉ Decimal.lastDigits places n :=
    point_notMem fun c hc => Decimal.isDigit_of_mem_lastDigits hc
  have unsigned : (Decimal.placesText n places).count '.' = 1 := by
    rw [Decimal.placesText, List.count_append, List.count_cons_self,
      List.count_eq_zero_of_not_mem whole, List.count_eq_zero_of_not_mem fraction]
  rw [Decimal.signedText]
  split
  · rw [List.count_cons_of_ne (by decide), unsigned]
  · exact unsigned

lemma point_mem_doubleText (x : Double) : '.' ∈ Decimal.doubleText x :=
  List.count_pos_iff.1 (by rw [count_point_doubleText]; decide)

/-- The text of a finite double is a numeral for it. -/
lemma number?_doubleText {x : Double} (h : x.isFinite) :
    number? (Decimal.doubleText x) = some (.double x) := by
  rw [number?, count_point_doubleText, if_neg (by decide),
    if_pos (by simpa using point_mem_doubleText x), Decimal.readDouble?_doubleText h,
    Option.map_some]

/-- A finite number is read back from its numeral. -/
lemma number?_text {n : Number} (h : (Element.number n).isFinite) :
    IsNumeral (Element.number n).text ∧ number? (Element.number n).text = some n := by
  cases n with
  | int n => exact ⟨isNumeral_intText n.toInt, number?_intText n⟩
  | double x =>
    have finite : x.magnitude < Double.infinity := by simpa [Element.isFinite, Double.isFinite] using h
    have text : (Element.number (.double x)).text = Decimal.doubleText x := by
      rw [Element.text, Number.text, if_neg, if_neg]
      · simpa [Double.isInfinite] using Nat.ne_of_lt finite
      · simpa [Double.isNaN] using Nat.le_of_lt finite
    rw [text]
    exact ⟨isNumeral_doubleText x, number?_doubleText h⟩

end Scan

/-! ## Single tokens of a tag -/

namespace Scanner

variable {s t : Scanner} {token : Token} {input rest : List Char}

/-- A name is read up to where no name goes on. -/
lemma readTag_name_append {name : List Char} (h : Text.isName name)
    (hrest : rest.head?.any Text.isNameChar = false) :
    s.readTag (name ++ rest) = (.ok (.name (String.ofList name)), rest) := by
  cases name with
  | nil => simp [Text.isName] at h
  | cons first name =>
    obtain ⟨hfirst, hname⟩ : Text.isLetter first ∧ ∀ d ∈ name, Text.isNameChar d := by
      simpa [Text.isName] using h
    have hne : first ≠ '=' := by
      rintro rfl
      exact absurd hfirst (by decide)
    obtain ⟨htake, hdrop⟩ := span_append hname hrest
    rw [List.cons_append, readTag, if_neg hne, if_pos hfirst, htake, hdrop]

lemma readTag_name {name : List Char} {c : Char} (h : Text.isName name)
    (hc : Text.isNameChar c = false) :
    s.readTag (name ++ c :: rest) = (.ok (.name (String.ofList name)), c :: rest) :=
  readTag_name_append h (by simpa using hc)

/-- Neither a name nor an echo tag begins as a numeral does. -/
lemma readTag_of_startsNumeral {first : Char} (h : Scan.startsNumeral (first :: rest)) :
    s.readTag (first :: rest) = s.readNumber first rest := by
  have hfirst : first.isDigit ∨ first = '+' ∨ first = '-' := by
    rw [Scan.startsNumeral_cons] at h
    simp only [Bool.or_eq_true, Bool.and_eq_true, beq_iff_eq] at h
    exact h.imp_right And.left
  have hne : first ≠ '=' := by
    rintro rfl
    exact absurd hfirst (by decide)
  have hletter : Text.isLetter first = false := by
    rcases hfirst with hdigit | rfl | rfl
    · exact Text.isLetter_of_isDigit hdigit
    · rfl
    · rfl
  rw [readTag, if_neg hne, if_neg (by simp [hletter]), if_pos h]

/-- A numeral ends where neither a digit nor a point follows. -/
lemma readTag_numeral_append {first : Char} {body : List Char} {n : Number}
    (hstarts : Scan.startsNumeral (first :: body)) (hbody : ∀ c ∈ body, Scan.isNumeralChar c)
    (hn : Scan.number? (first :: body) = some n)
    (hrest : rest.head?.any Scan.isNumeralChar = false) :
    s.readTag (first :: body ++ rest) = (.ok (.number n), rest) := by
  obtain ⟨htake, hdrop⟩ := span_append hbody hrest
  have hinput : Scan.startsNumeral (first :: (body ++ rest)) :=
    Scan.startsNumeral_append hstarts rest
  rw [List.cons_append, readTag_of_startsNumeral hinput]
  simp only [readNumber, htake, hdrop, hn]

/-- A numeral ends before a blank. -/
lemma readTag_numeral {text : List Char} {n : Number} (h : Scan.IsNumeral text)
    (hn : Scan.number? text = some n) :
    s.readTag (text ++ ' ' :: rest) = (.ok (.number n), ' ' :: rest) := by
  have hblank : (' ' :: rest).head?.any Scan.isNumeralChar = false := rfl
  cases h with
  | unsigned hd hbody =>
    exact readTag_numeral_append (by simp [Scan.startsNumeral_cons, hd]) hbody hn hblank
  | negative hd hbody =>
    exact readTag_numeral_append (by simp [Scan.startsNumeral_cons, hd])
      (List.forall_mem_cons.2 ⟨Scan.isNumeralChar_of_isDigit hd, hbody⟩) hn hblank

/-- An operator before a blank is no sign. -/
lemma readTag_operator {c : Char} (h : Scan.isOperator c) :
    s.readTag (c :: ' ' :: rest) = (.ok (.operator c), ' ' :: rest) := by
  have hne : c ≠ '=' := by
    rintro rfl
    exact absurd h (by decide)
  have hdigit : c.isDigit = false := by
    simp only [Scan.isOperator, Bool.or_eq_true, beq_iff_eq] at h
    rcases h with (((rfl | rfl) | rfl) | rfl) | rfl <;> rfl
  have starts : Scan.startsNumeral (c :: ' ' :: rest) = false := by
    rw [Scan.startsNumeral, hdigit]
    simp
  rw [readTag, if_neg hne, if_neg (by simp [Text.isLetter_of_isOperator h]),
    if_neg (by simp [starts]), if_pos h]

/-- A function is its name after an at sign. -/
lemma readTag_function {name : List Char} (h : Text.isName name) :
    s.readTag ('@' :: (name ++ ' ' :: rest)) =
      (.ok (.function (String.ofList name)), ' ' :: rest) := by
  cases name with
  | nil => simp [Text.isName] at h
  | cons first name =>
    obtain ⟨hfirst, hname⟩ : Text.isLetter first ∧ ∀ d ∈ name, Text.isNameChar d := by
      simpa [Text.isName] using h
    have hall : ∀ d ∈ first :: name, Text.isNameChar d :=
      List.forall_mem_cons.2 ⟨Text.isNameChar_of_isLetter hfirst, hname⟩
    rw [readTag, if_neg (by decide), if_neg (by decide), if_neg (by simp [Scan.startsNumeral]),
      if_neg (by decide), if_pos (by simp [hfirst]), takeWhile_append_cons hall (by decide),
      dropWhile_append_cons hall (by decide)]

/-- A string literal is read with its escapes undone. -/
lemma readTag_string {body : List Char} :
    s.readTag ('"' :: (Element.escapeString body ++ '"' :: rest)) =
      (.ok (.string (String.ofList body)), rest) := by
  have starts : Scan.startsNumeral ('"' :: (Element.escapeString body ++ '"' :: rest)) = false := by
    cases Element.escapeString body <;> simp [Scan.startsNumeral]
  rw [readTag, if_neg (by decide), if_neg (by decide), if_neg (by simp [starts]),
    if_neg (by decide), if_neg (by simp), if_pos rfl, readString, Scan.literal_escapeString]
  rfl

lemma readTag_tagClose : s.readTag ('$' :: '\x7d' :: rest) = (.ok .tagClose, rest) := by
  rw [readTag, if_neg (by decide), if_neg (by decide), if_neg (by simp [Scan.startsNumeral]),
    if_neg (by decide), if_neg (by simp), if_neg (by decide), if_pos (by simp), List.tail_cons]

/-- An element is read as the token that stands for it. -/
theorem readTag_element {e : Element} (hwf : e.IsWellFormed) (hfin : e.isFinite) :
    s.readTag (e.text ++ ' ' :: rest) = (.ok e.token, ' ' :: rest) := by
  cases e with
  | number n =>
    obtain ⟨hnumeral, hn⟩ := Scan.number?_text hfin
    exact readTag_numeral hnumeral hn
  | string body =>
    rw [Element.text, List.cons_append, List.cons_append, List.append_assoc, List.singleton_append,
      readTag_string, String.ofList_toList]
    rfl
  | «variable» name =>
    rcases hwf with rfl | hname
    · rfl
    · rw [Element.text, readTag_name hname (by decide), String.ofList_toList]
      rfl
  | function name =>
    rw [Element.text, List.cons_append, readTag_function hwf, String.ofList_toList]
    rfl
  | operator c => exact readTag_operator hwf

end Scanner

end PageScript
