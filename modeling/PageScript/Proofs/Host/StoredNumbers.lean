import PageScript.Host.Buffer
import PageScript.Proofs.Server.Sessions
import PageScript.Proofs.Token.Written
import PageScript.Proofs.Value.Arithmetic
/-!
# Numbers in stores

A parameter is a text, so a number that is stored comes back as one.  The text of an integer is an
integer numeral, and that of a finite double has a point and is read as the double that it was.  As
everyone who wants a number takes a value for the number that it stands for, the text that comes back
is as good as the number.

The infinities and what is not a number at all are written as words.  These stand for no number.
-/

namespace PageScript

/-! ## Texts of numbers -/

namespace Number

variable {n : Number}

/-- Whether a number is anything but an infinite or undefined double. -/
def isFinite : Number → Bool
  | int _ => true
  | double x => x.isFinite

/-- The text of an integer has none of the marks of a double. -/
lemma isDoubleText_intText (z : Int) : isDoubleText (Decimal.intText z) = false := by
  have hdigits : isDoubleText (Decimal.digits z.natAbs) = false :=
    Decimal.Numeral.isDoubleText_digits fun c hc => Decimal.isDigit_of_mem_digits hc
  unfold Decimal.intText
  split
  · exact hdigits
  · exact hdigits

/-- The text of a double has a point. -/
lemma isDoubleText_doubleText (x : Double) : isDoubleText (Decimal.doubleText x) :=
  List.any_eq_true.2 ⟨'.', Scan.point_mem_doubleText x, rfl⟩

/-- A finite number is what its text writes, of the same kind and bit for bit. -/
lemma ofText?_text (infinity : List Char) (h : n.isFinite) :
    ofText? (n.text infinity) = some n := by
  cases n with
  | int n =>
    rw [text, ofText?, isDoubleText_intText, if_neg Bool.false_ne_true, Decimal.readInt64?_intText]
    rfl
  | double x =>
    have hfinite : x.magnitude < Double.infinity := by simpa [isFinite, Double.isFinite] using h
    have htext : (double x).text infinity = Decimal.doubleText x := by
      rw [text, if_neg (by simpa [Double.isNaN] using hfinite.le),
        if_neg (by simpa [Double.isInfinite] using hfinite.ne)]
    rw [htext, ofText?, if_pos (isDoubleText_doubleText x), Decimal.readDouble?_doubleText h]
    rfl

/-- Any other number is written as a word, which writes no number. -/
lemma ofText?_text_of_not_isFinite (h : n.isFinite = false) :
    ofText? (n.text "Infinity".toList) = none := by
  cases n with
  | int n => cases h
  | double x =>
    have hle : Double.infinity ≤ x.magnitude := by simpa [isFinite, Double.isFinite] using h
    rw [text]
    split
    · decide
    · next hnan =>
      have hinfinite : x.isInfinite := by
        simp only [Double.isNaN, Double.isInfinite, decide_eq_true_eq] at hnan ⊢
        omega
      rw [if_pos hinfinite]
      split <;> decide

end Number

/-! ## Where numbers are wanted -/

namespace Value

/-- It makes no difference which of two values is used where a number is wanted: as an operand on
either side, as an angle, or as what is written under a pattern. -/
structure IsUsedAs (v w : Value) : Prop where
  calculate_left : ∀ op right, calculate op (some v) right = calculate op (some w) right
  calculate_right : ∀ op left, calculate op left (some v) = calculate op left (some w)
  order_left : ∀ right, order (some v) right = order (some w) right
  order_right : ∀ left, order left (some v) = order left (some w)
  sine : ∀ {σ : Type} [Host σ] (values : List Value) (host : σ),
    Builtin.sine.run ⟨v :: values, host⟩ = Builtin.sine.run ⟨w :: values, host⟩
  formatDecimal : ∀ {σ : Type} [Host σ] (pattern : Value) (values : List Value) (host : σ),
    Builtin.formatDecimal.run ⟨pattern :: v :: values, host⟩ =
      Builtin.formatDecimal.run ⟨pattern :: w :: values, host⟩

/-- The string `s` is refused wherever a number is wanted, and it is the one that is named, unless
it is the right one of two operands that are both refused. -/
structure IsRefused (s : String) : Prop where
  calculate_left : ∀ op right, calculate op (some (.string s)) right = .error (.notANumber s)
  calculate_right : ∀ op left, ∃ t, calculate op left (some (.string s)) = .error (.notANumber t) ∧
    (t = s ∨ IsNonNumeral left t)
  order_left : ∀ right, order (some (.string s)) right = .error (.notANumber s)
  order_right : ∀ left, ∃ t, order left (some (.string s)) = .error (.notANumber t) ∧
    (t = s ∨ IsNonNumeral left t)
  sine : ∀ {σ : Type} [Host σ] (values : List Value) (host : σ),
    Builtin.sine.run ⟨.string s :: values, host⟩ = .error (.notANumber s) ⟨values, host⟩
  formatDecimal : ∀ {σ : Type} [Host σ] (pattern : Value) (values : List Value) (host : σ),
    Builtin.formatDecimal.run ⟨pattern :: .string s :: values, host⟩ =
      .error (.notANumber s) ⟨values, host⟩

variable {v w : Value} {n : Number} {s : String}

/-- What is made of a value is made of the number that it stands for. -/
lemma isUsedAs_of_coerce_eq (h : coerce (some v) = coerce (some w)) : IsUsedAs v w where
  calculate_left op right := calculate_congr_left h
  calculate_right op left := calculate_congr_right h
  order_left right := by rw [order, order, h]
  order_right left := by rw [order, order, h]
  sine values host := by
    simp only [Builtin.run, Desk.pop, bind, EStateM.bind, toDouble, h]
  formatDecimal pattern values host := by
    simp only [Builtin.run, Desk.pop, bind, EStateM.bind, toDouble, h]

lemma IsNonNumeral.isRefused (h : IsNonNumeral (some (.string s)) s) : IsRefused s where
  calculate_left op right := calculate_of_left h
  calculate_right op left := by
    rcases exists_standsFor_or left with ⟨a, ha⟩ | ⟨t, ht⟩
    · exact ⟨s, calculate_of_right ha h, .inl rfl⟩
    · exact ⟨t, calculate_of_left ht, .inr ht⟩
  order_left right := order_of_left h
  order_right left := by
    rcases exists_standsFor_or left with ⟨a, ha⟩ | ⟨t, ht⟩
    · exact ⟨s, order_of_right ha h, .inl rfl⟩
    · exact ⟨t, order_of_left ht, .inr ht⟩
  sine values host := by
    simp only [Builtin.run, Desk.pop, bind, EStateM.bind, toDouble, h.coerce_eq]
    rfl
  formatDecimal pattern values host := by
    simp only [Builtin.run, Desk.pop, bind, EStateM.bind, toDouble, h.coerce_eq]
    rfl

end Value

/-! ## Stores -/

namespace Buffer

lemma hasStores : Host.HasStores Buffer where
  params_setParams memory params store b := by
    cases memory <;> cases store <;> rfl
  params_write text store b := by cases store <;> rfl
  params_setMime mime store b := by cases store <;> rfl
  params_dispatch path store b := by cases store <;> rfl

end Buffer

namespace Host

variable {σ : Type} [Host σ]

/-- What has been put under a name is found there. -/
lemma HasStores.get?_put (h : HasStores σ) (memory : Memory) (name value : String) (host : σ) :
    get? memory.store name (put memory name value host) = some value := by
  rw [get?, put, h.params_setParams, if_pos rfl]
  exact Std.ExtTreeMap.getElem?_insert_self

end Host

namespace Builtin

variable {σ : Type} [Host σ]

/-- A number that is stored comes back as its text.  If it is finite then this stands for the number
itself, so it may be used for it wherever a number is wanted.  The text of any other number is
refused wherever a number is wanted. -/
theorem getParam_setParam_number (h : Host.HasStores σ) (memory : Memory) (n : Number)
    (name key : Value) (hkey : key.text = name.text) (default : Value) (values below : List Value)
    (host : σ) :
    ∃ (stored : σ) (v : String),
      (setParam memory).run ⟨name :: .number n :: values, host⟩ = .ok () ⟨values, stored⟩ ∧
      (getParam memory.store).run ⟨default :: key :: below, stored⟩ =
        .ok () ⟨.string v :: below, stored⟩ ∧
      v = (Value.number n).text ∧
      (n.isFinite → Value.coerce (some (.string v)) = .ok n ∧
        Value.IsUsedAs (.string v) (.number n)) ∧
      (n.isFinite = false → Value.IsRefused v) := by
  let text := (Value.number n).text
  have hlist : text.toList = n.text "Infinity".toList := String.toList_ofList
  refine ⟨Host.put memory name.text text host, text, rfl, ?_, rfl, fun hn => ?_, fun hn => ?_⟩
  · simp only [run, Desk.pop, Desk.readHost, Desk.push, bind, EStateM.bind, hkey, h.get?_put,
      Option.elim]
  · have hcoerce : Value.coerce (some (.string text)) = .ok n := by
      rw [Value.coerce, hlist, Number.ofText?_text _ hn]
    exact ⟨hcoerce, Value.isUsedAs_of_coerce_eq hcoerce⟩
  · have hcoerce : Value.coerce (some (.string text)) = .error (.notANumber text) := by
      rw [Value.coerce, hlist, Number.ofText?_text_of_not_isFinite hn]
    exact (Value.isNonNumeral_iff.2 hcoerce).isRefused

/-- `0.1` is stored in the session of an exchange under one name, and infinity in a buffer under
another. -/
theorem getParam_setParam_number_examples :
    (∃ (stored : Exchange) (v : String),
      (setParam .persistent).run
          ⟨[.string "x", .double ⟨0x3fb999999999999a⟩], .ofSink .unbounded ∅ ∅ ∅⟩ =
        .ok () ⟨[], stored⟩ ∧
      (getParam .persistent).run ⟨[.int 0, .string "x"], stored⟩ = .ok () ⟨[.string v], stored⟩ ∧
      Value.IsUsedAs (.string v) (.double ⟨0x3fb999999999999a⟩)) ∧
    ∃ (stored : Buffer) (v : String),
      (setParam .temporary).run
          ⟨[.string "7", .double ⟨0x7ff0000000000000⟩], .ofParams ∅ ∅ ∅⟩ = .ok () ⟨[], stored⟩ ∧
      (getParam .temporary).run ⟨[.int 0, .int 7], stored⟩ = .ok () ⟨[.string v], stored⟩ ∧
      Value.IsRefused v := by
  obtain ⟨stored, v, hset, hget, -, hfinite, -⟩ :=
    getParam_setParam_number Exchange.hasStores .persistent (.double ⟨0x3fb999999999999a⟩)
      (.string "x") (.string "x") rfl (.int 0) [] [] (.ofSink .unbounded ∅ ∅ ∅)
  obtain ⟨stored', v', hset', hget', -, -, hinfinite⟩ :=
    getParam_setParam_number Buffer.hasStores .temporary (.double ⟨0x7ff0000000000000⟩)
      (.string "7") (.int 7) (by decide) (.int 0) [] [] (.ofParams ∅ ∅ ∅)
  exact ⟨⟨stored, v, hset, hget, (hfinite (by decide)).2⟩,
    stored', v', hset', hget', hinfinite (by decide)⟩

end Builtin

end PageScript
