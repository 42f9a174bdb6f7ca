import PageScript.Proofs.Document.RoundTrip
import PageScript.Proofs.Page.Concatenation
import PageScript.Proofs.Run.Expression
import Mathlib.Data.Int.ModEq
/-!
# Integer arithmetic on a page

Sums, differences and products of integer literals have a value over all integers, and one over the
integers of 64 bits, where every intermediate result wraps.  The second is the first modulo
`2 ^ 64`, however many intermediate results are out of range.  So an echo tag that holds such an
expression in postfix order writes the one integer in range that is congruent to the exact value.
-/

namespace PageScript

/-- An expression of integer literals, without quotients. -/
inductive IntExpression where
  /-- A literal. -/
  | literal (n : Int64)
  /-- A sum. -/
  | sum (left right : IntExpression)
  /-- A difference. -/
  | difference (left right : IntExpression)
  /-- A product. -/
  | product (left right : IntExpression)

namespace IntExpression

/-- The expression as one of a script. -/
def toExpression : IntExpression → Expression
  | literal n => .number (.int n)
  | sum left right => .operation .add left.toExpression right.toExpression
  | difference left right => .operation .subtract left.toExpression right.toExpression
  | product left right => .operation .multiply left.toExpression right.toExpression

/-- The value over all integers. -/
def exact : IntExpression → Int
  | literal n => n.toInt
  | sum left right => left.exact + right.exact
  | difference left right => left.exact - right.exact
  | product left right => left.exact * right.exact

/-- The echo tag that holds the expression in postfix order. -/
def tag (e : IntExpression) : Document := [.echo e.toExpression.elements]

/-! ## Values -/

/-- Wrapping is a homomorphism, so it does not matter whether each result wraps or the last one. -/
theorem value_toExpression (params : Store → Params) (b : Bindings) (e : IntExpression) :
    e.toExpression.value params b = .ok (.int (.ofInt e.exact)) := by
  induction e with
  | literal n =>
    rw [exact, Int64.ofInt_toInt]
    rfl
  | sum left right hleft hright =>
    rw [toExpression, Expression.value, hleft, hright, exact, Int64.ofInt_add]
    rfl
  | difference left right hleft hright =>
    rw [toExpression, Expression.value, hleft, hright, exact, Int64.ofInt_sub]
    rfl
  | product left right hleft hright =>
    rw [toExpression, Expression.value, hleft, hright, exact, Int64.ofInt_mul]
    rfl

/-! ## Pages -/

lemma isWellFormed_elements (e : IntExpression) :
    ∀ element ∈ e.toExpression.elements, element.IsWellFormed ∧ element.isFinite := by
  induction e with
  | literal n => simp [toExpression, Expression.elements, Element.IsWellFormed, Element.isFinite]
  | sum left right hleft hright | difference left right hleft hright
  | product left right hleft hright =>
    simp only [toExpression, Expression.elements, List.forall_mem_append, List.forall_mem_singleton]
    exact ⟨⟨hleft, hright⟩, by simp [Element.IsWellFormed, Scan.isOperator, Operation.symbol], rfl⟩

/-- The tag is read back from the page it is written as. -/
lemma read_source_tag (e : IntExpression) : Document.read (Document.source e.tag) = .ok e.tag := by
  refine Document.readFrom_source (.echo (fun x hx => (e.isWellFormed_elements x hx).1) .nil) ?_
    (Document.standsAt_ofSource _)
  intro x hx
  exact (e.isWellFormed_elements x (by simpa [tag, Document.elements, Node.elements] using hx)).2

/-- A page that is read as the tag asks its host to write the value, and for nothing else. -/
lemma render_of_read {page : List Char} {e : IntExpression} (h : Document.read page = .ok e.tag)
    {σ : Type} [Host σ] (limit : Nat) (host : σ) :
    render limit page host =
      match Host.write (Value.int (.ofInt e.exact)).text host with
      | .ok _ host => .ok () host
      | .error reason host => .error (.failed (.output reason)) host := by
  have hvalue := e.value_toExpression (Host.params · host) []
  have hcompute : Run.compute e.toExpression.elements ⟨[], host⟩ =
      .ok [.int (.ofInt e.exact)] ⟨[], host⟩ := by
    have hall := Expression.compute_flatMap [e.toExpression] [] host
    simp only [List.flatMap_cons, List.flatMap_nil, List.append_nil, List.mapM_cons, List.mapM_nil,
      hvalue] at hall
    exact hall
  have hrun : Document.run limit e.tag ⟨[], host⟩ =
      Run.write (Value.int (.ofInt e.exact)).text ⟨[], host⟩ := by
    simp only [Document.run, Node.run, tag, bind_pure_unit, Run.echo, List.forM_eq_forM]
    simp only [bind, EStateM.bind, hcompute]
    simp
  rw [render_eq h, Document.execute, hrun, Run.write]
  cases Host.write (Value.int (.ofInt e.exact)).text host with
  | ok _ host' => rfl
  | error reason host' => rfl

/-- Among the integers in range, wrapping finds the one that is congruent. -/
lemma eq_toInt_ofInt_iff {z w : Int} :
    (-2 ^ 63 ≤ w ∧ w < 2 ^ 63 ∧ w ≡ z [ZMOD 2 ^ 64]) ↔ w = (Int64.ofInt z).toInt := by
  rw [Int64.toInt_ofInt, eq_comm, Int.bmod_eq_iff (by decide), Int.modEq_comm, Int.modEq_iff_dvd]
  rfl

/-- An echo tag that holds an expression of integers in postfix order is read from the page it is
written as.  However it is spelled, rendering asks the host to write one decimal numeral, and for
nothing else: that of the one integer of 64 bits that is congruent to the exact value modulo
`2 ^ 64`, whatever intermediate results are out of range. -/
theorem render_tag_residue {σ : Type} [Host σ] (e : IntExpression) :
    ∃ z : Int, (∀ w, (-2 ^ 63 ≤ w ∧ w < 2 ^ 63 ∧ w ≡ e.exact [ZMOD 2 ^ 64]) ↔ w = z) ∧
      Document.read (Document.source e.tag) = .ok e.tag ∧
      ∀ page, Document.read page = .ok e.tag → ∀ (limit : Nat) (host : σ),
        render limit page host =
          match Host.write (toString z) host with
          | .ok _ host => .ok () host
          | .error reason host => .error (.failed (.output reason)) host := by
  refine ⟨(Int64.ofInt e.exact).toInt, fun w => eq_toInt_ofInt_iff, e.read_source_tag, ?_⟩
  intro page h limit host
  have htext : (Value.int (.ofInt e.exact)).text = toString (Int64.ofInt e.exact).toInt :=
    Decimal.ofList_intText _
  rw [render_of_read h, htext]

/-- Three times the integer after the last one of 64 bits, less a negative integer. -/
def overflowing : IntExpression :=
  .difference (.product (.sum (.literal 9223372036854775807) (.literal 1)) (.literal 3))
    (.literal (-5))

/-- A page where signs stand next to operators. -/
def signedPage : List Char := "\x7b$=\t9223372036854775807 +1+ 003*\r\n-5 -$\x7d".toList

theorem render_signedPage :
    Document.read signedPage = .ok overflowing.tag ∧
      render 0 signedPage (Buffer.ofParams ∅ ∅ ∅) =
        .ok () { Buffer.ofParams ∅ ∅ ∅ with output := "-9223372036854775803" } := by
  have hreads : (Scanner.ofSource signedPage).Reads
      (.tagOpen :: ((.name "=" :: overflowing.toExpression.elements.map Element.token) ++ [.tagClose]))
      ⟨signedPage, [], .text, some .tagClose⟩ := by
    repeat' first | exact .nil _ | refine .cons rfl ?_
  have hread : Document.read signedPage = .ok overflowing.tag := by
    rw [Document.read, Document.readFrom_of_derivation (.echo (.echo _) .nil) hreads,
      Document.readFrom_endOfInput (Document.take_endOfInput ⟨rfl, rfl, by simp⟩)]
    rfl
  obtain ⟨z, hz, -, hrender⟩ := render_tag_residue (σ := Buffer) overflowing
  have hvalue : -9223372036854775803 = z := (hz _).1 (by decide)
  refine ⟨hread, ?_⟩
  rw [hrender signedPage hread, ← hvalue]
  rfl

end IntExpression

end PageScript
