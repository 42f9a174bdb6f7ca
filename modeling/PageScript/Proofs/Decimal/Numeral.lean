import PageScript.Proofs.Double.Nearest
import PageScript.Proofs.Text.Span
import PageScript.Value
/-!
# What numerals stand for

A numeral has a sign or none, digits with perhaps a point among them or beside them, and perhaps an
exponent.  Without point and exponent it stands for an integer, if that fits in 64 bits.  Otherwise
it stands for a double: the nearest one to its value, with its sign, which counts for zero too.

Reading a string as a number finds what the numeral stands for that the string is, and fails if it
is none.
-/

namespace PageScript.Decimal

/-! ## Numerals -/

/-- What may stand in front of digits. -/
inductive Sign where
  | absent
  | plus
  | minus
deriving DecidableEq, Repr

namespace Sign

def text : Sign → List Char
  | absent => []
  | plus => ['+']
  | minus => ['-']

def isNegative : Sign → Bool
  | absent | plus => false
  | minus => true

end Sign

/-- An exponent of ten behind a decimal. -/
structure Exponent where
  mark : Char
  sign : Sign
  digits : List Char
  mark_eq : mark = 'e' ∨ mark = 'E'
  digits_ne_nil : digits ≠ []
  isDigit_digits : ∀ c ∈ digits, c.isDigit

namespace Exponent

def text (x : Exponent) : List Char := x.mark :: (x.sign.text ++ x.digits)

def value (x : Exponent) : ℤ := signed x.sign.isNegative (ofDigits x.digits)

end Exponent

/-- A numeral, in its parts. -/
structure Numeral where
  sign : Sign
  /-- The digits before the point. -/
  whole : List Char
  /-- The digits after the point, if there is a point. -/
  fraction : Option (List Char)
  exponent : Option Exponent
  isDigit_whole : ∀ c ∈ whole, c.isDigit
  isDigit_fraction : ∀ ds ∈ fraction, ∀ c ∈ ds, c.isDigit
  digits_ne_nil : whole ++ fraction.getD [] ≠ []

namespace Numeral

variable (m : Numeral)

def digits : List Char := m.whole ++ m.fraction.getD []

/-- The point with the digits after it. -/
def fractionText : List Char := m.fraction.elim [] ('.' :: ·)

def exponentText : List Char := m.exponent.elim [] Exponent.text

def text : List Char := m.sign.text ++ (m.whole ++ (m.fractionText ++ m.exponentText))

/-- The power of ten that the last digit counts. -/
def lastPlace : ℤ := m.exponent.elim 0 Exponent.value - (m.fraction.getD []).length

/-- The value without its sign. -/
def size : ℚ := ofDigits m.digits * 10 ^ m.lastPlace

/-- Whether there is neither a point nor an exponent. -/
def isWhole : Bool := m.fraction.isNone && m.exponent.isNone

/-- The integer that the digits before the point write. -/
def wholeValue : ℤ := signed m.sign.isNegative (ofDigits m.whole)

/-- `m.Denotes n` holds if `n` is the number that the numeral stands for. -/
inductive Denotes : Number → Prop
  /-- An integer that fits in 64 bits. -/
  | int {n : Int64} (whole : m.isWhole) (value : n.toInt = m.wholeValue) : Denotes (.int n)
  /-- The double nearest to a decimal. -/
  | double {x : Double} (decimal : m.isWhole = false) (sign : x.isNegative = m.sign.isNegative)
      (nearest : Double.IsNearest m.size x.magnitude) : Denotes (.double x)

end Numeral

/-! ## Rounding -/

/-- Infinity is taken for the power of two that comes after the largest finite double. -/
lemma valueOf_infinity : Double.valueOf Double.infinity = 2 ^ 1024 := by
  have hplaces : 1024 + Double.places = 52 + 2046 := by
    unfold Double.places
    rfl
  have hunits : Double.units Double.infinity = 2 ^ 1024 * Double.scale := by
    have hparts : Double.infinity = 2046 * 2 ^ 52 + 2 ^ 52 := rfl
    rw [hparts, Double.units_shift (by decide) (by decide), Double.scale, ← pow_add, ← pow_add,
      hplaces]
  have hscale : (Double.scale : ℚ) ≠ 0 := by exact_mod_cast Double.scale_pos.ne'
  rw [Double.valueOf, hunits, div_eq_iff hscale, Nat.cast_mul, Nat.cast_pow, Nat.cast_ofNat]

/-- Reading a decimal without a fraction rounds it to the nearest double. -/
lemma isNearest_scientific_natCast (n k : ℕ) :
    Double.IsNearest (n * 10 ^ k) (scientific n k) := by
  have hnearest := Double.isNearest_nearest (n * 10 ^ k) one_pos
  push_cast at hnearest
  rw [div_one] at hnearest
  unfold scientific
  split
  · next hn =>
    have hzero : Double.nearest 0 1 = 0 := Double.nearest_eq_zero (by simp)
    rw [hn, zero_mul, hzero] at hnearest
    rwa [hn]
  split
  · -- the reader does not compute what is infinite anyway
    next hn hk =>
    refine Double.isNearest_infinity ?_
    have hk' : 310 ≤ k := by exact_mod_cast hk
    have hpow : 2 ^ 1024 ≤ 10 ^ 310 := by decide +kernel
    have hbound : 2 ^ 1024 ≤ n * 10 ^ k :=
      calc 2 ^ 1024 ≤ 10 ^ 310 := hpow
        _ ≤ 10 ^ k := pow_le_pow_right₀ (by decide) hk'
        _ ≤ n * 10 ^ k := Nat.le_mul_of_pos_left _ (Nat.pos_of_ne_zero hn)
    rw [valueOf_infinity]
    exact_mod_cast hbound
  split
  · next h => omega
  · simpa using hnearest

/-- Reading a decimal rounds it to the nearest double. -/
theorem isNearest_scientific (n : ℕ) (e : ℤ) :
    Double.IsNearest (n * 10 ^ e) (scientific n e) := by
  obtain ⟨k, rfl | rfl⟩ := e.eq_nat_or_neg
  · simpa using isNearest_scientific_natCast n k
  · have hvalue : (n * 10 ^ (-(k : ℤ)) : ℚ) = n / (10 ^ k : ℕ) := by
      rw [zpow_neg, zpow_natCast, ← div_eq_mul_inv]
      push_cast
      rfl
    rw [scientific_neg, hvalue]
    exact Double.isNearest_nearest n (by positivity)

/-! ## Signs and exponents -/

section Reading

variable {s rest ds : List Char} {negative : Bool}

lemma splitSign_append (sign : Sign) (h : rest.head?.any (fun c => c == '+' || c == '-') = false) :
    splitSign (sign.text ++ rest) = (sign.isNegative, rest) := by
  cases sign with
  | plus | minus => rfl
  | absent =>
    rw [Sign.text, List.nil_append]
    unfold splitSign
    split
    · simp at h
    · simp at h
    · rfl

lemma exists_of_splitSign (h : splitSign s = (negative, rest)) :
    ∃ sign : Sign, s = sign.text ++ rest ∧ sign.isNegative = negative := by
  unfold splitSign at h
  split at h <;> obtain ⟨rfl, rfl⟩ := Prod.mk.inj h
  · exact ⟨.minus, rfl, rfl⟩
  · exact ⟨.plus, rfl, rfl⟩
  · exact ⟨.absent, rfl, rfl⟩

/-- Digits do not begin with a sign. -/
lemma any_head?_sign (h : ∀ c ∈ ds, c.isDigit) :
    ds.head?.any (fun c => c == '+' || c == '-') = false := by
  cases ds with
  | nil => rfl
  | cons c ds =>
    have hc := h c List.mem_cons_self
    have hplus : c ≠ '+' := by
      rintro rfl
      exact absurd hc (by decide)
    have hminus : c ≠ '-' := by
      rintro rfl
      exact absurd hc (by decide)
    simp [hplus, hminus]

lemma readInt?_eq_some_iff {z : ℤ} :
    readInt? s = some z ↔ ∃ (sign : Sign) (ds : List Char), ds ≠ [] ∧ (∀ c ∈ ds, c.isDigit) ∧
      s = sign.text ++ ds ∧ z = signed sign.isNegative (ofDigits ds) := by
  constructor
  · intro h
    unfold readInt? at h
    split at h
    next negative ds hsplit =>
    split at h
    · next hdigits =>
      obtain ⟨sign, rfl, rfl⟩ := exists_of_splitSign hsplit
      obtain ⟨hne, hall⟩ : ds ≠ [] ∧ ∀ c ∈ ds, c.isDigit := by simpa using hdigits
      exact ⟨sign, ds, hne, hall, rfl, (Option.some.inj h).symm⟩
    · cases h
  · rintro ⟨sign, ds, hne, hall, rfl, rfl⟩
    have hdigits : !ds.isEmpty && ds.all Char.isDigit := by simpa [hne] using hall
    rw [readInt?, splitSign_append sign (any_head?_sign hall)]
    dsimp only
    rw [if_pos hdigits]

lemma readExponent?_eq_some_iff {e : ℤ} :
    readExponent? rest = some e ↔ ∃ x : Option Exponent,
      rest = x.elim [] Exponent.text ∧ e = x.elim 0 Exponent.value := by
  constructor
  · intro h
    cases rest with
    | nil => exact ⟨none, rfl, (Option.some.inj h).symm⟩
    | cons c rest =>
      rw [readExponent?] at h
      split at h
      · next hmark =>
        obtain ⟨sign, ds, hne, hall, rfl, rfl⟩ := readInt?_eq_some_iff.1 h
        exact ⟨some ⟨c, sign, ds, by simpa using hmark, hne, hall⟩, rfl, rfl⟩
      · cases h
  · rintro ⟨x, rfl, rfl⟩
    cases x with
    | none => rfl
    | some x =>
      have hmark : (x.mark == 'e' || x.mark == 'E') = true := by simpa using x.mark_eq
      rw [Option.elim_some, Option.elim_some, Exponent.text, readExponent?, if_pos hmark,
        readInt?_eq_some_iff]
      exact ⟨x.sign, x.digits, x.digits_ne_nil, x.isDigit_digits, rfl, rfl⟩

end Reading

/-! ## Decimals -/

namespace Numeral

variable (m : Numeral)

lemma any_head?_exponentText {p : Char → Bool} (he : p 'e' = false) (hE : p 'E' = false) :
    m.exponentText.head?.any p = false := by
  unfold exponentText
  cases m.exponent with
  | none => rfl
  | some x => rcases x.mark_eq with h | h <;> simpa [Exponent.text, h]

/-- Digits do not go on behind the whole part. -/
lemma any_head?_fractionText_append {p : Char → Bool} (hpoint : p '.' = false) (he : p 'e' = false)
    (hE : p 'E' = false) : (m.fractionText ++ m.exponentText).head?.any p = false := by
  unfold fractionText
  cases m.fraction with
  | none => exact m.any_head?_exponentText he hE
  | some ds => simpa using hpoint

lemma splitFraction_text :
    splitFraction (m.fractionText ++ m.exponentText) = (m.fraction.getD [], m.exponentText) := by
  have hend : m.exponentText.head?.any Char.isDigit = false :=
    m.any_head?_exponentText (by decide) (by decide)
  unfold fractionText
  cases hfraction : m.fraction with
  | none =>
    have hpoint : m.exponentText.head?.any (· == '.') = false :=
      m.any_head?_exponentText (by decide) (by decide)
    rw [Option.elim_none, List.nil_append, Option.getD_none]
    unfold splitFraction
    split
    · next h => simp [h] at hpoint
    · rfl
  | some ds =>
    obtain ⟨htake, hdrop⟩ := span_append (m.isDigit_fraction ds hfraction) hend
    rw [Option.elim_some, List.cons_append, splitFraction, htake, hdrop, Option.getD_some]

/-- A numeral is read part by part. -/
lemma readDouble?_text :
    readDouble? m.text = some (Double.ofMagnitude m.sign.isNegative
      (scientific (ofDigits m.digits) m.lastPlace)) := by
  have hsign : (m.whole ++ (m.fractionText ++ m.exponentText)).head?.any
      (fun c => c == '+' || c == '-') = false := by
    cases hwhole : m.whole with
    | nil => exact m.any_head?_fractionText_append (by decide) (by decide) (by decide)
    | cons c ds =>
      have hdigits : ∀ d ∈ c :: ds, d.isDigit := hwhole ▸ m.isDigit_whole
      have hhead := any_head?_sign hdigits
      exact hhead
  obtain ⟨htake, hdrop⟩ := span_append m.isDigit_whole
    (m.any_head?_fractionText_append (p := Char.isDigit) (by decide) (by decide) (by decide))
  have hexponent : readExponent? m.exponentText = some (m.exponent.elim 0 Exponent.value) :=
    readExponent?_eq_some_iff.2 ⟨m.exponent, rfl, rfl⟩
  have hne : (m.whole ++ m.fraction.getD []).isEmpty = false := by simpa using m.digits_ne_nil
  rw [readDouble?, text, splitSign_append m.sign hsign]
  dsimp only
  rw [htake, hdrop, m.splitFraction_text]
  dsimp only
  rw [hne, hexponent]
  rfl

/-- What a fraction is split off is a point with digits behind it, or there is no point. -/
lemma exists_of_splitFraction {s ds rest : List Char} (h : splitFraction s = (ds, rest)) :
    ∃ fraction : Option (List Char), s = fraction.elim [] ('.' :: ·) ++ rest ∧
      fraction.getD [] = ds ∧ ∀ digits ∈ fraction, ∀ c ∈ digits, c.isDigit := by
  unfold splitFraction at h
  split at h <;> obtain ⟨rfl, rfl⟩ := Prod.mk.inj h
  · next tail =>
    refine ⟨some (tail.takeWhile Char.isDigit), by simp, rfl, ?_⟩
    rintro _ ⟨⟩ c hc
    exact List.mem_takeWhile_imp hc
  · exact ⟨none, rfl, rfl, by simp⟩

/-- Nothing else is read as a decimal. -/
lemma exists_of_readDouble? {s : List Char} (h : (readDouble? s).isSome) :
    ∃ m : Numeral, m.text = s := by
  unfold readDouble? at h
  split at h
  next negative body hsplit =>
  obtain ⟨sign, rfl, -⟩ := exists_of_splitSign hsplit
  dsimp only at h
  generalize hfraction : splitFraction (body.dropWhile Char.isDigit) = parts at h
  obtain ⟨ds, rest⟩ := parts
  split at h
  · simp at h
  · next hne =>
    rw [Option.isSome_map] at h
    obtain ⟨e, he⟩ := Option.isSome_iff_exists.1 h
    obtain ⟨exponent, rfl, -⟩ := readExponent?_eq_some_iff.1 he
    obtain ⟨fraction, hbody, rfl, hdigits⟩ := exists_of_splitFraction hfraction
    refine ⟨⟨sign, body.takeWhile Char.isDigit, fraction, exponent,
      fun c hc => List.mem_takeWhile_imp hc, hdigits, by simpa using hne⟩, ?_⟩
    rw [text, fractionText, exponentText, ← hbody, List.takeWhile_append_dropWhile]

/-! ## Numbers -/

lemma isDoubleText_digits {ds : List Char} (h : ∀ c ∈ ds, c.isDigit) :
    Number.isDoubleText ds = false := by
  rw [Number.isDoubleText, List.any_eq_false]
  intro c hc
  have hdigit := h c hc
  have hne {d : Char} (hd : d.isDigit = false) : c ≠ d := by
    rintro rfl
    exact absurd hdigit (by simp [hd])
  have hpoint : c ≠ '.' := hne rfl
  have he : c ≠ 'e' := hne rfl
  have hE : c ≠ 'E' := hne rfl
  simp [hpoint, he, hE]

/-- What makes a string be read as a double is a point or an exponent. -/
lemma isDoubleText_text : Number.isDoubleText m.text = !m.isWhole := by
  have happend (a b : List Char) :
      Number.isDoubleText (a ++ b) = (Number.isDoubleText a || Number.isDoubleText b) :=
    List.any_append
  have hsign : Number.isDoubleText m.sign.text = false := by cases m.sign <;> rfl
  have hfraction : Number.isDoubleText m.fractionText = m.fraction.isSome := by
    unfold fractionText
    cases m.fraction with
    | none => rfl
    | some ds => simp [Number.isDoubleText]
  have hexponent : Number.isDoubleText m.exponentText = m.exponent.isSome := by
    unfold exponentText
    cases m.exponent with
    | none => rfl
    | some x => rcases x.mark_eq with h | h <;> simp [Number.isDoubleText, Exponent.text, h]
  rw [text, happend, happend, happend, hsign, isDoubleText_digits m.isDigit_whole, hfraction,
    hexponent, isWhole]
  cases m.fraction <;> cases m.exponent <;> rfl

lemma text_of_isWhole (h : m.isWhole) : m.text = m.sign.text ++ m.whole := by
  obtain ⟨hfraction, hexponent⟩ : m.fraction = none ∧ m.exponent = none := by
    simpa [isWhole] using h
  simp [text, fractionText, exponentText, hfraction, hexponent]

lemma readInt?_text (h : m.isWhole) : readInt? m.text = some m.wholeValue := by
  have hne : m.whole ≠ [] := by
    have hfraction : m.fraction = none := by
      simpa using (Bool.and_eq_true_iff.1 h).1
    simpa [hfraction] using m.digits_ne_nil
  rw [m.text_of_isWhole h, readInt?_eq_some_iff]
  exact ⟨m.sign, m.whole, hne, m.isDigit_whole, rfl, rfl⟩

/-- The integers of 64 bits. -/
lemma readInt64?_eq_some_iff {s : List Char} {n : Int64} :
    readInt64? s = some n ↔ readInt? s = some n.toInt := by
  rw [readInt64?, Option.bind_eq_some_iff]
  constructor
  · rintro ⟨z, hz, hn⟩
    split at hn
    · next hrange =>
      obtain rfl := Option.some.inj hn
      rw [hz, Int64.toInt_ofInt_of_le hrange.1 hrange.2]
    · cases hn
  · intro hn
    refine ⟨n.toInt, hn, ?_⟩
    rw [if_pos ⟨n.le_toInt, n.toInt_lt⟩, Int64.ofInt_toInt]

/-- A numeral is read as the nearest double to its value, with its sign. -/
lemma exists_readDouble?_text :
    ∃ x, readDouble? m.text = some x ∧ x.isNegative = m.sign.isNegative ∧
      Double.IsNearest m.size x.magnitude := by
  have hnearest := isNearest_scientific (ofDigits m.digits) m.lastPlace
  refine ⟨_, m.readDouble?_text, Double.isNegative_ofMagnitude hnearest.lt_two_pow, ?_⟩
  rwa [Double.magnitude_ofMagnitude hnearest.lt_two_pow]

/-- The double that a numeral denotes is the one that it is read as. -/
lemma denotes_double_iff {x : Double} (h : m.isWhole = false) :
    m.Denotes (.double x) ↔ readDouble? m.text = some x := by
  obtain ⟨y, hread, hsign, hnearest⟩ := m.exists_readDouble?_text
  rw [hread, Option.some.injEq]
  constructor
  · rintro (_ | ⟨-, hsign', hx⟩)
    rw [← Double.ofMagnitude_magnitude x, ← Double.ofMagnitude_magnitude y, hsign, hsign',
      hnearest.unique hx]
  · rintro rfl
    exact .double h hsign hnearest

/-- A string is read as a number if it is a numeral that stands for that number. -/
theorem ofText?_eq_some_iff {s : List Char} {n : Number} :
    Number.ofText? s = some n ↔ ∃ m : Numeral, m.text = s ∧ m.Denotes n := by
  constructor
  · intro h
    unfold Number.ofText? at h
    split at h
    · next hdouble =>
      obtain ⟨x, hx, rfl⟩ := Option.map_eq_some_iff.1 h
      obtain ⟨m, rfl⟩ := exists_of_readDouble? (Option.isSome_of_eq_some hx)
      have hdecimal : m.isWhole = false := by simpa [m.isDoubleText_text] using hdouble
      exact ⟨m, rfl, (m.denotes_double_iff hdecimal).2 hx⟩
    · obtain ⟨n, hn, rfl⟩ := Option.map_eq_some_iff.1 h
      obtain ⟨sign, ds, hne, hall, rfl, hvalue⟩ :=
        readInt?_eq_some_iff.1 (readInt64?_eq_some_iff.1 hn)
      let m : Numeral := ⟨sign, ds, none, none, hall, by simp, by simpa using hne⟩
      exact ⟨m, m.text_of_isWhole rfl, .int rfl hvalue⟩
  · rintro ⟨m, rfl, hn⟩
    rw [Number.ofText?, m.isDoubleText_text]
    cases hn with
    | int hwhole hvalue =>
      rw [if_neg (by simp [hwhole]), readInt64?_eq_some_iff.2, Option.map_some]
      rw [m.readInt?_text hwhole, hvalue]
    | double hdecimal hsign hnearest =>
      have hx := (m.denotes_double_iff hdecimal).1 (.double hdecimal hsign hnearest)
      rw [if_pos (by simp [hdecimal]), hx, Option.map_some]

end Numeral

end PageScript.Decimal
