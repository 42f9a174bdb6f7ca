import PageScript.Proofs.Run.Requests
import PageScript.Proofs.Value.Arithmetic
/-!
# The depth of the stack

How many values an element takes and gives can be read off the element.  So how many values there
are at each place in an echo tag is known before the tag runs, unless it fails: a tag that never
runs short of values writes as many as are left at its end, and one that does fails at the first
element that is short of them, or at an earlier one for some other reason.

An element takes its operands before it does anything else.  So there are two ways for it to fail:
it is short of values, or it has found them all and the reason is another one.
-/

namespace PageScript

/-! ## Reasons to fail -/

namespace RunError

/-- The failures of arithmetic. -/
inductive IsArithmetic : RunError → Prop
  /-- A string is no number. -/
  | notANumber (text : String) : IsArithmetic (.notANumber text)
  /-- An integer is divided by zero. -/
  | divisionByZero : IsArithmetic .divisionByZero

/-- The failures of a function that has found its operands. -/
inductive IsOfFunction : RunError → Prop
  /-- An operand is no number. -/
  | notANumber (text : String) : IsOfFunction (.notANumber text)
  /-- An operand is no decimal pattern. -/
  | invalidPattern (text : String) : IsOfFunction (.invalidPattern text)
  /-- The host refuses what it is asked for. -/
  | host (error : HostError) : IsOfFunction (.host error)

/-- Whether an element has found too few values. -/
def isUnderflow : RunError → Bool
  | stackUnderflow _ => true
  | notANumber _ | divisionByZero | unsupportedOperator _ | unknownFunction _ | undefinedVariable _
  | invalidPattern _ | output _ | host _ => false

variable {e : RunError}

lemma IsArithmetic.isUnderflow_eq (h : e.IsArithmetic) : e.isUnderflow = false := by
  cases h <;> rfl

lemma IsOfFunction.isUnderflow_eq (h : e.IsOfFunction) : e.isUnderflow = false := by
  cases h <;> rfl

end RunError

namespace Value

variable {e : RunError}

lemma toDouble_eq_error {v : Value} (h : v.toDouble = .error e) : e.IsOfFunction := by
  unfold toDouble at h
  cases hv : coerce (some v) with
  | ok n => simp [hv, Except.map] at h
  | error e' =>
    obtain ⟨text, -, rfl⟩ := coerce_eq_error_iff.1 hv
    obtain rfl : RunError.notANumber text = e := by simpa [hv, Except.map] using h
    exact .notANumber text

lemma calculate_eq_error {op : Operation} {left right : Option Value}
    (h : calculate op left right = .error e) : e.IsArithmetic := by
  rcases calculate_eq_error_iff.1 h with ⟨s, -, rfl⟩ | ⟨a, s, -, -, rfl⟩ | ⟨k, -, -, -, rfl⟩
  · exact .notANumber s
  · exact .notANumber s
  · exact .divisionByZero

end Value

/-! ## What is taken and given -/

variable {σ : Type}

/-- `Desk.Ends P reason element depth k m r` holds if `r` is how an action that takes `k` values and
gives `m` may end, where there were `depth` values before it.  In any case `P` holds of the host. -/
inductive Desk.Ends (P : σ → Prop) (reason : RunError → Prop) (element : Element)
    (depth k m : Nat) : EStateM.Result RunError (Desk σ) Unit → Prop
  /-- There are too few values, and the element is to blame. -/
  | short {d : Desk σ} (few : depth < k) (keeps : P d.host) :
      Ends P reason element depth k m (.error (.stackUnderflow element) d)
  /-- There are values enough, but there is another reason to fail. -/
  | failed {d : Desk σ} {e : RunError} (enough : k ≤ depth) (because : reason e)
      (keeps : P d.host) : Ends P reason element depth k m (.error e d)
  /-- There are values enough, and those that are given take their place. -/
  | done {d : Desk σ} (enough : k ≤ depth) (length_eq : d.values.length + k = depth + m)
      (keeps : P d.host) : Ends P reason element depth k m (.ok () d)

/-- `Takes P reason element k m action` holds if the action takes `k` values, for want of which
`element` is to blame, and gives `m`; if it fails otherwise, then for a `reason`.  It keeps `P`. -/
def Takes (P : σ → Prop) (reason : RunError → Prop) (element : Element) (k m : Nat)
    (action : EStateM RunError (Desk σ) Unit) : Prop :=
  ∀ d, P d.host → Desk.Ends P reason element d.values.length k m (action d)

namespace Takes

variable {P : σ → Prop} {reason : RunError → Prop} {element : Element} {k m : Nat}

lemma mono {reason' : RunError → Prop} {action : EStateM RunError (Desk σ) Unit}
    (h : Takes P reason element k m action) (himp : ∀ e, reason e → reason' e) :
    Takes P reason' element k m action := by
  intro d hd
  have hends := h d hd
  generalize action d = r at hends
  cases hends with
  | short few keeps => exact .short few keeps
  | failed enough because keeps => exact .failed enough (himp _ because) keeps
  | done enough length_eq keeps => exact .done enough length_eq keeps

/-- A value that is taken first is one value more. -/
lemma pop {rest : Value → EStateM RunError (Desk σ) Unit}
    (h : ∀ v, Takes P reason element k m (rest v)) :
    Takes P reason element (k + 1) m (Desk.pop element >>= rest) := by
  rintro ⟨values, host⟩ hhost
  cases values with
  | nil => exact .short (Nat.succ_pos k) hhost
  | cons v values =>
    have hends := h v ⟨values, host⟩ hhost
    change Desk.Ends P reason element (values.length + 1) (k + 1) m (rest v ⟨values, host⟩)
    generalize rest v ⟨values, host⟩ = r at hends
    cases hends with
    | short few keeps => exact .short (Nat.succ_lt_succ few) keeps
    | failed enough because keeps => exact .failed (Nat.succ_le_succ enough) because keeps
    | done enough length_eq keeps =>
      refine .done (Nat.succ_le_succ enough) ?_ keeps
      dsimp only at length_eq
      omega

lemma push (v : Value) : Takes P reason element 0 1 (Desk.push v) :=
  fun _ hd => .done (Nat.zero_le _) rfl hd

/-- A value that is given first is one value more. -/
lemma push_bind {v : Value} {rest : EStateM RunError (Desk σ) Unit}
    (h : Takes P reason element 0 m rest) :
    Takes P reason element 0 (m + 1) (Desk.push v >>= fun _ => rest) := by
  rintro ⟨values, host⟩ hhost
  have hends := h ⟨v :: values, host⟩ hhost
  change Desk.Ends P reason element values.length 0 (m + 1) (rest ⟨v :: values, host⟩)
  generalize rest ⟨v :: values, host⟩ = r at hends
  cases hends with
  | short few keeps => exact absurd few (Nat.not_lt_zero _)
  | failed enough because keeps => exact .failed (Nat.zero_le _) because keeps
  | done enough length_eq keeps =>
    refine .done (Nat.zero_le _) ?_ keeps
    rw [List.length_cons] at length_eq
    omega

lemma ofExcept {α : Type} {result : Except RunError α}
    {rest : α → EStateM RunError (Desk σ) Unit} (herror : ∀ e, result = .error e → reason e)
    (h : ∀ a, Takes P reason element 0 m (rest a)) :
    Takes P reason element 0 m (Desk.ofExcept result >>= rest) := by
  intro d hd
  cases result with
  | ok a => exact h a d hd
  | error e => exact .failed (Nat.zero_le _) (herror e rfl) hd

lemma throw {e : RunError} (he : reason e) :
    Takes P reason element 0 m (MonadExcept.throw e : EStateM RunError (Desk σ) Unit) :=
  fun _ hd => .failed (Nat.zero_le _) he hd

lemma readHost {α : Type} {f : σ → α} {rest : α → EStateM RunError (Desk σ) Unit}
    (h : ∀ a, Takes P reason element k m (rest a)) :
    Takes P reason element k m (Desk.readHost f >>= rest) :=
  fun d hd => h (f d.host) d hd

lemma modifyHost {f : σ → σ} (h : ∀ {s}, P s → P (f s)) :
    Takes P reason element 0 0 (Desk.modifyHost f) :=
  fun _ hd => .done (Nat.zero_le _) rfl (h hd)

lemma askHost {action : EStateM HostError σ Unit} (herror : ∀ e, reason (.host e))
    (h : ∀ {s}, P s → P (stateAfter (action s))) :
    Takes P reason element 0 0 (Desk.askHost action) := by
  rintro ⟨values, host⟩ hhost
  have hnext := h hhost
  unfold Desk.askHost
  dsimp only
  generalize action host = r at hnext
  cases r with
  | ok _ host' => exact .done (Nat.zero_le _) rfl hnext
  | error e host' => exact .failed (Nat.zero_le _) (herror e) hnext

end Takes

/-! ## Functions and elements -/

variable [Host σ]

/-- What no request other than to write a text changes of a host. -/
structure Host.Keeps (P : σ → Prop) : Prop where
  setParams : ∀ {s}, P s → ∀ memory params, P (Host.setParams memory params s)
  setMime : ∀ {s}, P s → ∀ mime, P (stateAfter (Host.setMime mime s))
  dispatch : ∀ {s}, P s → ∀ path, P (stateAfter (Host.dispatch path s))

variable {P : σ → Prop}

/-- A function takes its operands, gives its results, and writes nothing. -/
lemma Builtin.takes (hP : Host.Keeps P) (f : Builtin) :
    Takes P RunError.IsOfFunction f.element f.operands f.results f.run := by
  cases f with
  | sine =>
    refine .pop fun angle => .ofExcept (fun e he => ?_) fun x => .push _
    exact Value.toDouble_eq_error he
  | formatDecimal =>
    refine .pop fun pattern => .pop fun number => .ofExcept (fun e he => ?_) fun x => ?_
    · exact Value.toDouble_eq_error he
    · cases Decimal.Pattern.read? pattern.text.toList with
      | some p => exact .push _
      | none => exact .throw (.invalidPattern _)
  | duplicate => exact .pop fun top => .push_bind (.push top)
  | swap => exact .pop fun top => .pop fun second => .push_bind (.push second)
  | setMimeType => exact .pop fun mime => .askHost .host fun hs => hP.setMime hs _
  | getParam store => exact .pop fun default => .pop fun name => .readHost fun found => .push _
  | setParam memory =>
    exact .pop fun name => .pop fun v => .modifyHost fun hs => hP.setParams hs _ _
  | deleteParam memory => exact .pop fun name => .modifyHost fun hs => hP.setParams hs _ _
  | dispatch => exact .pop fun path => .askHost .host fun hs => hP.dispatch hs _

/-- A function is found by its name. -/
lemma Builtin.name_eq_of_ofName? {name : String} {f : Builtin} (h : ofName? name = some f) :
    f.name = name := by
  have := List.find?_some h
  simpa using this

namespace Element

/-- How many values an element takes.  A function without a meaning takes none before it fails. -/
def operands : Element → Nat
  | .number _ | .string _ | .variable _ => 0
  | .operator _ => 2
  | .function name => (Builtin.ofName? name).elim 0 Builtin.operands

/-- How many values an element gives. -/
def results : Element → Nat
  | .number _ | .string _ | .variable _ | .operator _ => 1
  | .function name => (Builtin.ofName? name).elim 0 Builtin.results

/-- What an element takes and gives is known beforehand. -/
lemma takes (hP : Host.Keeps P) (b : Bindings) (e : Element) :
    Takes P (fun error => error.isUnderflow = false) e e.operands e.results (e.evaluate b) := by
  cases e with
  | number | string => exact .push _
  | «variable» name =>
    refine .ofExcept (fun error herror => ?_) fun v => .push v
    unfold Bindings.value Bindings.peek at herror
    cases hname : b.lookup name with
    | some slot => simp [hname, Except.map] at herror
    | none =>
      obtain rfl : RunError.undefinedVariable name = error := by
        simpa [hname, Except.map] using herror
      rfl
  | operator c =>
    refine .pop fun right => .pop fun left => ?_
    cases Operation.ofChar? c with
    | none => exact .throw rfl
    | some op =>
      exact .ofExcept (fun error herror => (Value.calculate_eq_error herror).isUnderflow_eq)
        fun v => .push v
  | function name =>
    cases hname : Builtin.ofName? name with
    | none =>
      simp only [operands, results, evaluate, Builtin.call, hname, Option.elim]
      exact .throw rfl
    | some f =>
      have hf := (Builtin.takes hP f).mono fun error => RunError.IsOfFunction.isUnderflow_eq
      rw [Builtin.element, Builtin.name_eq_of_ofName? hname] at hf
      simpa only [operands, results, evaluate, Builtin.call, hname, Option.elim] using hf

/-- How many values there are after some elements, where there were `n` before them, if no element
is short of values. -/
def depthAfter? (n : Nat) : List Element → Option Nat
  | [] => some n
  | e :: rest => if e.operands ≤ n then depthAfter? (n - e.operands + e.results) rest else none

/-- Elements that are never short of values leave as many as was known beforehand, or fail for some
other reason. -/
lemma forM_evaluate (hP : Host.Keeps P) (b : Bindings) {elements : List Element} {d : Desk σ}
    {n : Nat} (hd : P d.host) (h : depthAfter? d.values.length elements = some n) :
    (∃ d', elements.forM (evaluate b) d = .ok () d' ∧ d'.values.length = n ∧ P d'.host) ∨
      ∃ error d', elements.forM (evaluate b) d = .error error d' ∧ error.isUnderflow = false ∧
        P d'.host := by
  induction elements generalizing d with
  | nil => exact .inl ⟨d, rfl, Option.some.inj h, hd⟩
  | cons e rest ih =>
    rw [depthAfter?] at h
    split at h
    · next henough =>
      have hends := e.takes hP b d hd
      simp only [List.forM_eq_forM, List.forM_cons, bind, EStateM.bind] at ih ⊢
      generalize e.evaluate b d = r at hends
      cases hends with
      | short few keeps => omega
      | @failed d' error enough because keeps => exact .inr ⟨error, d', rfl, because, keeps⟩
      | @done d' enough length_eq keeps =>
        have hlength : d'.values.length = d.values.length - e.operands + e.results := by omega
        exact ih keeps (hlength ▸ h)
    · cases h

/-- Elements fail no later than at the first one that is short of values. -/
lemma forM_evaluate_short (hP : Host.Keeps P) (b : Bindings) {before : List Element}
    (after : List Element) {e : Element} {d : Desk σ} {n : Nat} (hd : P d.host)
    (h : depthAfter? d.values.length before = some n) (hshort : n < e.operands) :
    ∃ error d', (before ++ e :: after).forM (evaluate b) d = .error error d' ∧ P d'.host ∧
      (error = .stackUnderflow e ∨ error.isUnderflow = false ∧
        ∃ d'', before.forM (evaluate b) d = .error error d'') := by
  simp only [List.forM_eq_forM, List.forM_append, List.forM_cons, bind, EStateM.bind]
  obtain ⟨d₁, hrun, hlength, hd₁⟩ | ⟨error, d₁, hrun, herror, hd₁⟩ := forM_evaluate hP b hd h
  · rw [List.forM_eq_forM] at hrun
    rw [hrun]
    have hends := e.takes hP b d₁ hd₁
    dsimp only
    generalize e.evaluate b d₁ = r at hends
    cases hends with
    | @short d₂ few keeps => exact ⟨_, d₂, rfl, keeps, .inl rfl⟩
    | failed enough because keeps => omega
    | done enough length_eq keeps => omega
  · rw [List.forM_eq_forM] at hrun
    rw [hrun]
    exact ⟨error, d₁, rfl, hd₁, .inr ⟨herror, d₁, rfl⟩⟩

end Element

/-! ## Tags -/

/-- The text that is to be written, if it is that. -/
def Request.text? : Request → Option String
  | write text => some text
  | setParams .. | setMime _ | dispatch _ => none

/-- Nothing but a request to write is one. -/
lemma Logged.keeps_unwritten :
    Host.Keeps fun l : Logged σ => l.requests.filterMap Request.text? = [] where
  setParams := by
    intro l h memory params
    exact (List.filterMap_append ..).trans (by rw [h]; rfl)
  setMime := by
    rintro ⟨host, rs⟩ h mime
    have : (stateAfter (Host.setMime mime (⟨host, rs⟩ : Logged σ))).requests =
        rs ++ [.setMime mime] := by
      simp only [Host.setMime, ask]
      cases Host.setMime mime host <;> rfl
    dsimp only at h ⊢
    rw [this, List.filterMap_append, h]
    rfl
  dispatch := by
    rintro ⟨host, rs⟩ h path
    have : (stateAfter (Host.dispatch path (⟨host, rs⟩ : Logged σ))).requests =
        rs ++ [.dispatch path] := by
      simp only [Host.dispatch, ask]
      cases Host.dispatch path host <;> rfl
    dsimp only at h ⊢
    rw [this, List.filterMap_append, h]
    rfl

namespace Run

variable {elements : List Element} {b : Bindings} {host : σ} {d : Desk σ} {e : RunError}

lemma compute_of_error (h : elements.forM (Element.evaluate b) ⟨[], host⟩ = .error e d) :
    compute elements ⟨b, host⟩ = .error (.failed e) ⟨b, d.host⟩ := by
  simp only [compute, h]

lemma echo_of_error (h : elements.forM (Element.evaluate b) ⟨[], host⟩ = .error e d) :
    echo elements ⟨b, host⟩ = .error (.failed e) ⟨b, d.host⟩ := by
  simp only [echo, bind, EStateM.bind, compute_of_error h]

lemma echo_of_ok (h : elements.forM (Element.evaluate b) ⟨[], host⟩ = .ok () d) :
    echo elements ⟨b, host⟩ = (d.values.reverse.forM fun v => write v.text) ⟨b, d.host⟩ := by
  simp only [echo, bind, EStateM.bind, compute, h]

/-- Writing fails only where the host refuses the output. -/
lemma forM_write_eq_error {values : List Value} {stop : Stop} {s r : Run σ}
    (h : (values.forM fun v => write v.text) s = .error stop r) :
    ∃ reason, stop = .failed (.output reason) := by
  induction values generalizing s with
  | nil => cases h
  | cons v values ih =>
    simp only [List.forM_eq_forM, List.forM_cons, bind, EStateM.bind] at h ih
    cases hwrite : write v.text s with
    | ok _ s' =>
      rw [hwrite] at h
      exact ih h
    | error stop' s' =>
      rw [hwrite] at h
      obtain rfl : stop' = stop := (EStateM.Result.error.inj h).1
      unfold write at hwrite
      dsimp only at hwrite
      split at hwrite
      · cases hwrite
      · next reason _ _ => exact ⟨reason, (EStateM.Result.error.inj hwrite).1.symm⟩

/-- The log of what is written, one text after the other. -/
lemma forM_write_logged {values : List Value} {rs : List Request} {r : Run σ}
    (h : (values.forM fun v => write v.text) ⟨b, host⟩ = .ok () r) :
    (values.forM fun v => write v.text) (⟨b, ⟨host, rs⟩⟩ : Run (Logged σ)) =
      .ok () ⟨r.bindings, ⟨r.host, rs ++ values.map fun v => .write v.text⟩⟩ := by
  induction values generalizing host rs with
  | nil =>
    obtain rfl := (EStateM.Result.ok.inj h).2
    simp [pure, EStateM.pure]
  | cons v values ih =>
    simp only [List.forM_eq_forM, List.forM_cons, bind, EStateM.bind] at h ih ⊢
    cases hwrite : Host.write v.text host with
    | error reason host' => simp [write, hwrite] at h
    | ok _ host' =>
      simp only [write, hwrite] at h
      have hlogged : write v.text (⟨b, ⟨host, rs⟩⟩ : Run (Logged σ)) =
          .ok () ⟨b, ⟨host', rs ++ [.write v.text]⟩⟩ := by
        simp only [write, Host.write, Logged.ask, hwrite]
      rw [hlogged]
      dsimp only
      rw [ih h, List.map_cons, List.append_assoc, List.singleton_append]

variable (elements b host)

/-- The texts that an echo tag asks its host to write, in order. -/
def written : List String :=
  (stateAfter (echo elements (⟨b, ⟨host, []⟩⟩ : Run (Logged σ)))).host.requests.filterMap
    Request.text?

/-- Elements do the same on a host with a log as on the host without. -/
lemma agrees_logged :
    Agreement (OnDesk (Logged.Shows fun _ _ => True)) (fun _ => False)
      (elements.forM (Element.evaluate b) ⟨[], host⟩)
      (elements.forM (Element.evaluate b) (⟨[], ⟨host, []⟩⟩ : Desk (Logged σ))) := by
  have hfollows : Host.Follows fun (_ : List Request) (_ : σ) => True :=
    ⟨fun _ _ => trivial, fun _ _ _ => trivial, fun _ _ => trivial, fun _ _ => trivial⟩
  have hevaluate (e : Element) : DeskAgrees (Logged.Shows fun _ _ => True) (fun _ => False)
      (e.evaluate b : EStateM RunError (Desk σ) Unit)
      (e.evaluate b : EStateM RunError (Desk (Logged σ)) Unit) := by
    rw [Element.evaluate_eq, Element.evaluate_eq]
    exact DeskAgrees.evaluate (Logged.agree hfollows) b.scope e
  have hall : DeskAgrees (Logged.Shows fun _ _ => True) (fun _ => False)
      (elements.forM (Element.evaluate b)) (elements.forM (Element.evaluate b)) := .forM hevaluate
  have hends := hall ⟨[], host⟩ ⟨[], ⟨host, []⟩⟩ ⟨rfl, rfl, trivial⟩
  generalize elements.forM (Element.evaluate b) (⟨[], host⟩ : Desk σ) = r,
    elements.forM (Element.evaluate b) (⟨[], ⟨host, []⟩⟩ : Desk (Logged σ)) = r' at hends ⊢
  cases hends with
  | ok a h => exact .ok a h
  | error e h => exact .error e h
  | @excused _ e _ h => cases e <;> exact h.elim

variable {elements b host}

/-- A tag that never runs short of values fails for another reason, if it does; else it writes the
values that are left. -/
lemma echo_of_depthAfter {n : Nat} (hn : Element.depthAfter? 0 elements = some n) :
    (∀ e r, echo elements ⟨b, host⟩ ≠ .error (.failed (.stackUnderflow e)) r) ∧
      ∀ r, echo elements ⟨b, host⟩ = .ok () r →
        ∃ d, elements.forM (Element.evaluate b) ⟨[], host⟩ = .ok () d ∧ d.values.length = n ∧
          written elements b host = d.values.reverse.map Value.text := by
  have hlogged := agrees_logged elements b host
  obtain ⟨d, hrun, hlength, -⟩ | ⟨error, d, hrun, herror, -⟩ :=
    Element.forM_evaluate (P := fun _ : σ => True) ⟨by simp, by simp, by simp⟩ b
      (d := ⟨[], host⟩) trivial hn
  · rw [echo_of_ok hrun]
    refine ⟨fun e r h => ?_, fun r h => ⟨d, hrun, hlength, ?_⟩⟩
    · obtain ⟨reason, hstop⟩ := forM_write_eq_error h
      cases hstop
    · -- On a host with a log the elements leave the same values, and no text is in the log yet.
      obtain ⟨d', hrun', -, hunwritten⟩ | ⟨error, d', hrun', -⟩ :=
        Element.forM_evaluate Logged.keeps_unwritten b (d := ⟨[], ⟨host, []⟩⟩) rfl hn
      · rw [hrun, hrun'] at hlogged
        cases hlogged with
        | ok _ related =>
          obtain ⟨values, l⟩ := d'
          obtain ⟨host', rs⟩ := l
          obtain ⟨rfl, hhost, -⟩ := related
          dsimp only at hhost
          subst hhost
          rw [written, echo_of_ok hrun', forM_write_logged h]
          simp only [stateAfter, List.filterMap_append, hunwritten, List.nil_append,
            List.filterMap_map]
          change d.values.reverse.filterMap (some ∘ Value.text) = _
          rw [List.filterMap_eq_map]
      · rw [hrun, hrun'] at hlogged
        cases hlogged with
        | excused h => exact h.elim
  · rw [echo_of_error hrun]
    refine ⟨fun e r h => ?_, fun r h => by cases h⟩
    obtain rfl : error = .stackUnderflow e := by simpa using (EStateM.Result.error.inj h).1
    cases herror

/-- A tag with an element that is short of values fails there at the latest, and writes nothing. -/
lemma echo_of_short {before : List Element} (after : List Element) {e : Element} {n : Nat}
    (hbefore : Element.depthAfter? 0 before = some n) (hshort : n < e.operands) :
    ∃ error r, echo (before ++ e :: after) ⟨b, host⟩ = .error (.failed error) r ∧
      written (before ++ e :: after) b host = [] ∧
      (error = .stackUnderflow e ∨ error.isUnderflow = false ∧
        ∃ r', compute before ⟨b, host⟩ = .error (.failed error) r') := by
  obtain ⟨error, d, hrun, -, hcause⟩ :=
    Element.forM_evaluate_short (P := fun _ : σ => True) ⟨by simp, by simp, by simp⟩ b after
      (d := ⟨[], host⟩) trivial hbefore hshort
  obtain ⟨error', d', hrun', hunwritten, -⟩ :=
    Element.forM_evaluate_short Logged.keeps_unwritten b after (d := ⟨[], ⟨host, []⟩⟩) rfl
      hbefore hshort
  refine ⟨error, _, echo_of_error hrun, ?_, hcause.imp_right ?_⟩
  · rw [written, echo_of_error hrun']
    exact hunwritten
  · rintro ⟨herror, d'', hbefore'⟩
    exact ⟨herror, _, compute_of_error hbefore'⟩

/-- If no element of an echo tag is short of values, no element is found to be; and where the tag
succeeds, it writes as many values as are known beforehand to be left, which are those that are
left, bottom first.  Otherwise the tag fails at the first element that is short of values, and names
it, or before that for another reason; and it writes nothing. -/
theorem echo_depth (elements : List Element) (b : Bindings) (host : σ) :
    (∀ n, Element.depthAfter? 0 elements = some n →
      (∀ e r, echo elements ⟨b, host⟩ ≠ .error (.failed (.stackUnderflow e)) r) ∧
      ∀ r, echo elements ⟨b, host⟩ = .ok () r →
        ∃ d, elements.forM (Element.evaluate b) ⟨[], host⟩ = .ok () d ∧ d.values.length = n ∧
          written elements b host = d.values.reverse.map Value.text) ∧
    ∀ before e after n, elements = before ++ e :: after →
      Element.depthAfter? 0 before = some n → n < e.operands →
        ∃ error r, echo elements ⟨b, host⟩ = .error (.failed error) r ∧
          written elements b host = [] ∧
          (error = .stackUnderflow e ∨ error.isUnderflow = false ∧
            ∃ r', compute before ⟨b, host⟩ = .error (.failed error) r') := by
  refine ⟨fun n hn => echo_of_depthAfter hn, ?_⟩
  rintro before e after n rfl hbefore hshort
  exact echo_of_short after hbefore hshort

/-- Two copies of a number can be added, but then there is nothing left to exchange the sum with. -/
example :
    let elements : List Element := [.number (.int 5), .function "dup", .operator '+']
    Element.depthAfter? 0 elements = some 1 ∧
      Element.depthAfter? 0 (elements ++ [.function "swap"]) = none := by
  decide

end Run

end PageScript
