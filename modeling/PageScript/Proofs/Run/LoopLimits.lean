import PageScript.Proofs.Document.RoundTrip
import PageScript.Proofs.Run.CountingLoop
import PageScript.Proofs.Value.Arithmetic
/-!
# Loops whose limit or step is no number

A string takes the place of a number as long as it writes one.  The opening tag of a loop does not
ask for that; a loop finds out where it uses the value.  Its limit is used at once, in the
comparison before the first round, and its step at the end of the first round.

So a limit that is no number always ends the loop with a failure that names it, or names the first
value of the loop if that is no number either.  A step that is no number does so after one round;
but a loop that starts beyond its limit has no round, and does not fail.
-/

namespace PageScript

/-! ## Strings that are no numbers -/

namespace Value

/-- The string that a value is, if it writes no number. -/
def nonNumeral? : Value → Option String
  | number _ => none
  | string s =>
    match Number.ofText? s.toList with
    | some _ => none
    | none => some s

variable {v w : Value} {text : String}

lemma nonNumeral?_eq_some_iff : v.nonNumeral? = some text ↔ IsNonNumeral (some v) text := by
  rw [isNonNumeral_iff]
  cases v with
  | number n => simp [nonNumeral?, coerce]
  | string s =>
    rw [nonNumeral?, coerce]
    cases Number.ofText? s.toList <;> simp

lemma exists_standsFor (h : v.nonNumeral? = none) : ∃ n, StandsFor (some v) n := by
  rcases exists_standsFor_or (some v) with hn | ⟨s, hs⟩
  · exact hn
  · simp [nonNumeral?_eq_some_iff.2 hs] at h

/-- The first of two values that is no number is the left operand, or the right one after a
number. -/
lemma isNonNumeral_of_findSome? (h : [v, w].findSome? nonNumeral? = some text) :
    IsNonNumeral (some v) text ∨ ∃ n, StandsFor (some v) n ∧ IsNonNumeral (some w) text := by
  cases hv : v.nonNumeral? with
  | some s =>
    obtain rfl : s = text := by simpa [hv] using h
    exact .inl (nonNumeral?_eq_some_iff.1 hv)
  | none =>
    obtain ⟨n, hn⟩ := exists_standsFor hv
    exact .inr ⟨n, hn, nonNumeral?_eq_some_iff.1 (by simpa [hv] using h)⟩

lemma order_of_nonNumeral (h : [v, w].findSome? nonNumeral? = some text) :
    order (some v) (some w) = .error (.notANumber text) := by
  rcases isNonNumeral_of_findSome? h with hv | ⟨n, hn, hw⟩
  · exact order_of_left hv
  · exact order_of_right hn hw

lemma calculate_of_nonNumeral (op : Operation) (h : [v, w].findSome? nonNumeral? = some text) :
    calculate op (some v) (some w) = .error (.notANumber text) := by
  rcases isNonNumeral_of_findSome? h with hv | ⟨n, hn, hw⟩
  · exact calculate_of_left hv
  · exact calculate_of_right hn hw

lemma exists_order_eq_ok (hv : v.nonNumeral? = none) (hw : w.nonNumeral? = none) :
    ∃ order, Value.order (some v) (some w) = .ok order := by
  obtain ⟨a, ha⟩ := exists_standsFor hv
  obtain ⟨b, hb⟩ := exists_standsFor hw
  exact ⟨a.order b, order_of_numbers ha hb⟩

end Value

/-! ## The first round -/

variable {σ : Type}

namespace Run

/-- A step that fails ends the loop after the body has been run. -/
lemma rounds_of_next_error {body : EStateM Stop (Run σ) Unit} {b : Bindings} {name : String}
    {v stop step : Value} {order : Ordering} {limit : Nat} {host host' : σ} {e : RunError}
    (h : Value.order (some v) (some stop) = .ok order) (hround : order ≠ .gt)
    (hbody : body ⟨(name, some v) :: b, host⟩ = .ok () ⟨(name, some v) :: b, host'⟩)
    (hnext : Value.calculate .add (some v) (some step) = .error e) :
    rounds name stop step body (limit + 1) ⟨(name, some v) :: b, host⟩ =
      .error (.failed e) ⟨(name, some v) :: b, host'⟩ := by
  simp [rounds, readBindings, changeBindings, Bindings.peek_cons, Bindings.apply_cons, Slot.apply,
    h, hround, hbody, hnext, bind, EStateM.bind, Except.bind]

end Run

namespace Document

variable [Host σ] {header : LoopHeader} {body : List Node} {b : Bindings}
  {start stop step : Value} {host after : σ}

/-- A loop by itself goes through its rounds, and takes its variable back. -/
lemma run_loop (hstart : header.start.operandValue b = .ok start)
    (hstop : header.stop.operandValue b = .ok stop) (hstep : header.stepValue b = .ok step)
    (limit : Nat) (host : σ) :
    run limit [.loop header body] ⟨b, host⟩ =
      (do
        Run.rounds header.name stop step (run limit body) limit
        discard <| Run.changeBindings (Bindings.pop header.name))
      ⟨(header.name, some start) :: b, host⟩ := by
  simp only [run, Node.run, bind_pure_unit, Run.loop_eq hstart hstop hstep]

section Endings

variable (hstart : header.start.operandValue b = .ok start)
  (hstop : header.stop.operandValue b = .ok stop) (hstep : header.stepValue b = .ok step)
include hstart hstop hstep

/-- A loop whose first value is greater than its limit does nothing. -/
lemma ends_loop_of_gt (horder : Value.order (some start) (some stop) = .ok .gt) (host : σ) :
    Ends [.loop header body] b host (.ok b host) := by
  refine ⟨⟨1, ?_⟩, by simp⟩
  rw [run_loop hstart hstop hstep]
  simp only [bind, EStateM.bind, Run.rounds_of_gt horder, Run.discard_pop_cons]
  rfl

/-- A loop whose first value does not compare with its limit fails for that. -/
lemma ends_loop_of_order_error {e : RunError}
    (horder : Value.order (some start) (some stop) = .error e) (host : σ) :
    Ends [.loop header body] b host (.error (.failed e) host) := by
  refine ⟨⟨1, ?_⟩, by simp⟩
  rw [run_loop hstart hstop hstep]
  simp only [bind, EStateM.bind, Run.rounds_of_order_error horder]
  rfl

/-- A loop whose first step fails does so after one round. -/
lemma ends_loop_of_next_error {e : RunError} {order : Ordering}
    (horder : Value.order (some start) (some stop) = .ok order) (hround : order ≠ .gt)
    (hbody : Succeeds body ((header.name, some start) :: b) host after)
    (hnext : Value.calculate .add (some start) (some step) = .error e) :
    Ends [.loop header body] b host (.error (.failed e) after) := by
  obtain ⟨least, hleast⟩ := hbody.exists_run_eq
  refine ⟨⟨least + 1, ?_⟩, by simp⟩
  rw [run_loop hstart hstop hstep]
  simp only [bind, EStateM.bind,
    Run.rounds_of_next_error horder hround (hleast (least + 1) (by omega)) hnext]
  rfl

end Endings

/-- Let the limit or the step of a loop be a string that is no number, and let one run of its body
succeed.  Then the loop fails, and names the first of its values that is no number, unless its first
value is greater than its limit.  In that case, in which only the step can be at fault, it succeeds
without a round. -/
theorem ends_loop_notANumber_iff (hstart : header.start.operandValue b = .ok start)
    (hstop : header.stop.operandValue b = .ok stop) (hstep : header.stepValue b = .ok step)
    (hlimits : stop.nonNumeral?.isSome ∨ step.nonNumeral?.isSome)
    (hbody : Succeeds body ((header.name, some start) :: b) host after) :
    ∃ text, [start, stop, step].findSome? Value.nonNumeral? = some text ∧
      ((∃ host' ∈ [host, after],
          Ends [.loop header body] b host (.error (.failed (.notANumber text)) host')) ↔
        Value.order (some start) (some stop) ≠ .ok .gt) ∧
      (Value.order (some start) (some stop) = .ok .gt →
        stop.nonNumeral? = none ∧ Ends [.loop header body] b host (.ok b host)) := by
  cases hfirst : [start, stop].findSome? Value.nonNumeral? with
  | some text =>
    -- the comparison before the first round fails
    have horder := Value.order_of_nonNumeral hfirst
    have hends := @ends_loop_of_order_error _ _ _ body _ _ _ _ hstart hstop hstep _ horder host
    have hnamed : ([start, stop] ++ [step]).findSome? Value.nonNumeral? = some text := by
      rw [List.findSome?_append, hfirst]
      rfl
    refine ⟨text, hnamed, ?_, ?_⟩
    · rw [horder]
      exact iff_of_true ⟨host, by simp, hends⟩ (by simp)
    · rw [horder]
      simp
  | none =>
    -- the comparison succeeds, and only the step is no number
    have hnone : start.nonNumeral? = none ∧ stop.nonNumeral? = none := by simpa using hfirst
    obtain ⟨hstart', hstop'⟩ := hnone
    obtain ⟨text, htext⟩ : ∃ text, step.nonNumeral? = some text := by
      simpa [hstop', Option.isSome_iff_exists] using hlimits
    obtain ⟨order, horder⟩ := Value.exists_order_eq_ok hstart' hstop'
    refine ⟨text, by simp [hstart', hstop', htext], ?_, ?_⟩
    · rw [horder]
      by_cases hgt : order = .gt
      · subst hgt
        refine iff_of_false ?_ (by simp)
        rintro ⟨host', -, hends⟩
        cases hends.unique (ends_loop_of_gt hstart hstop hstep horder host)
      · have hnext : Value.calculate .add (some start) (some step) = .error (.notANumber text) :=
          Value.calculate_of_nonNumeral .add (by simp [hstart', htext])
        have hends := ends_loop_of_next_error hstart hstop hstep horder hgt hbody hnext
        exact iff_of_true ⟨after, by simp, hends⟩ (by simpa using hgt)
    · intro hgt
      exact ⟨hstop', ends_loop_of_gt hstart hstop hstep hgt host⟩

/-- A loop with one round, whose step is no number. -/
def misstepHeader : LoopHeader := ⟨"i", .string "1", .number (.int 3), some (.string "x")⟩

/-- A host without parameters, and the same after one run of a body that writes an `a`. -/
def letterHost : Nat → Buffer
  | 0 => .ofParams ∅ ∅ ∅
  | _ => { Buffer.ofParams ∅ ∅ ∅ with output := "a" }

lemma succeeds_letter (b : Bindings) :
    Succeeds [.text "a"] b (letterHost 0) (letterHost 1) :=
  ⟨b, ⟨1, rfl⟩, by simp⟩

theorem ends_misstepLoop_iff :
    misstepHeader.start.operandValue [] = .ok (.string "1") ∧
      misstepHeader.stop.operandValue [] = .ok (.int 3) ∧
      misstepHeader.stepValue [] = .ok (.string "x") ∧
      ((Value.int 3).nonNumeral?.isSome ∨ (Value.string "x").nonNumeral?.isSome) ∧
      Succeeds [.text "a"] [("i", some (.string "1"))] (letterHost 0) (letterHost 1) ∧
      ∃ host' ∈ [letterHost 0, letterHost 1],
        Ends [.loop misstepHeader [.text "a"]] [] (letterHost 0)
          (.error (.failed (.notANumber "x")) host') := by
  have hlimits : (Value.int 3).nonNumeral?.isSome ∨ (Value.string "x").nonNumeral?.isSome := by
    decide
  have hbody := succeeds_letter [("i", some (.string "1"))]
  refine ⟨rfl, rfl, rfl, hlimits, hbody, ?_⟩
  have hfails := @ends_loop_notANumber_iff Buffer _ misstepHeader [.text "a"] [] (.string "1")
    (.int 3) (.string "x") _ _ rfl rfl rfl hlimits hbody
  obtain ⟨text, htext, hends, -⟩ := hfails
  obtain rfl : "x" = text := Option.some.inj htext
  exact hends.2 (by decide)

/-- A loop without a round, whose step is no number. -/
def idleHeader : LoopHeader :=
  ⟨"i", .number (.int 2), .number (.int 1), some (.string "x")⟩

/-- A page with this loop. -/
def idlePage : List Char := "\x7b$FOR i 2 1 \"x\" $\x7da\x7b$END$\x7d".toList

/-- Nobody asks whether the step of this loop is a number, and it succeeds. -/
theorem not_ends_notANumber_idleLoop :
    read idlePage = .ok [.loop idleHeader [.text "a"]] ∧
      idleHeader.start.operandValue [] = .ok (.int 2) ∧
      idleHeader.stop.operandValue [] = .ok (.int 1) ∧
      idleHeader.stepValue [] = .ok (.string "x") ∧ (Value.string "x").nonNumeral? = some "x" ∧
      Succeeds [.text "a"] [("i", some (.int 2))] (letterHost 0) (letterHost 1) ∧
      Ends [.loop idleHeader [.text "a"]] [] (letterHost 0) (.ok [] (letterHost 0)) ∧
      ∀ text host', ¬ Ends [.loop idleHeader [.text "a"]] [] (letterHost 0)
        (.error (.failed (.notANumber text)) host') := by
  have hends : Ends [.loop idleHeader [.text "a"]] [] (letterHost 0) (.ok [] (letterHost 0)) :=
    @ends_loop_of_gt _ _ idleHeader _ _ (.int 2) (.int 1) (.string "x") rfl rfl rfl rfl _
  have hread : read idlePage = .ok [.loop idleHeader [.text "a"]] := by
    refine readFrom_source ?_ (by decide) (standsAt_ofSource _)
    refine .loop ⟨by decide, ?_, by decide⟩ (.text (by decide) (by simp) .nil) .nil
    simp [LoopHeader.operands, idleHeader, Element.IsWellFormed]
  refine ⟨hread, rfl, rfl, rfl, by decide, succeeds_letter _, hends, ?_⟩
  intro text host' hfails
  cases hends.unique hfails

end Document

end PageScript
