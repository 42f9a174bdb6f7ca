import PageScript.Proofs.Run.Entries
import Mathlib
/-!
# Loops that count

A loop counts if it goes from one integer to another with a step of at least 1.  Its variable is then
stepped in 64 bits, so at the `k`-th entry of the body it is the start plus `k` steps modulo `2 ^ 64`.

Over all integers the first value past the limit comes after a number of rounds that start, limit and
step tell.  If this value is in range, no step wraps, and the loop does what it says: that many
rounds, with the exact values.  If it is out of range, the step that should end the loop takes the
variable back below its last value, and the loop goes on.
-/

namespace PageScript

/-- A loop counts if it goes from one integer to another, with an integer step of at least 1. -/
structure LoopHeader.IsCounting (header : LoopHeader) (b : Bindings) (start stop step : Int64) :
    Prop where
  start_eq : header.start.operandValue b = .ok (.int start)
  stop_eq : header.stop.operandValue b = .ok (.int stop)
  step_eq : header.stepValue b = .ok (.int step)
  one_le_step : 1 ≤ step.toInt

/-! ## Counting -/

/-- The number of rounds over all integers. -/
def countRounds (start stop step : Int64) : Nat :=
  ((stop.toInt - start.toInt) / step.toInt + 1).toNat

/-- The start after `k` steps, in 64 bits. -/
def countValue (start step : Int64) (k : Nat) : Int64 := .ofInt (start.toInt + k * step.toInt)

section Counting

variable {start stop step : Int64} {k : Nat}

lemma add_succ_mul (a c : Int) (k : Nat) : a + (k + 1 : Nat) * c = a + k * c + c := by
  rw [Int.natCast_succ, Int.add_mul, Int.one_mul, Int.add_assoc]

@[simp] lemma countValue_zero (start step : Int64) : countValue start step 0 = start := by
  simp [countValue]

/-- Wrapping is a homomorphism, so each value comes from the one before it by a step. -/
lemma countValue_succ (start step : Int64) (k : Nat) :
    countValue start step (k + 1) = countValue start step k + step := by
  rw [countValue, add_succ_mul, Int64.ofInt_add, Int64.ofInt_toInt]
  rfl

/-- Rounds are those of which the exact value is not greater than the limit. -/
lemma lt_countRounds_iff (hstep : 1 ≤ step.toInt) :
    k < countRounds start stop step ↔ start.toInt + k * step.toInt ≤ stop.toInt := by
  rw [countRounds, Int.lt_toNat, Int.lt_add_one_iff, Int.le_ediv_iff_mul_le (by omega)]
  omega

/-- Steps go up, so a value is exact if it is not greater than the greatest integer of 64 bits. -/
lemma toInt_countValue (hstep : 1 ≤ step.toInt) (h : start.toInt + k * step.toInt < 2 ^ 63) :
    (countValue start step k).toInt = start.toInt + k * step.toInt := by
  have hstart := Int64.le_toInt start
  have hsteps : 0 ≤ k * step.toInt := Int.mul_nonneg (by omega) (by omega)
  exact Int64.toInt_ofInt_of_le (by omega) h

lemma toInt_countValue_of_lt (hstep : 1 ≤ step.toInt) (hk : k < countRounds start stop step) :
    (countValue start step k).toInt = start.toInt + k * step.toInt := by
  have hle := (lt_countRounds_iff hstep).1 hk
  have hstop := Int64.toInt_lt stop
  exact toInt_countValue hstep (by omega)

/-- A step out of range leads below the value that it starts from. -/
lemma countValue_succ_lt (hstep : 1 ≤ step.toInt) (hk : k < countRounds start stop step)
    (hout : 2 ^ 63 ≤ start.toInt + (k + 1 : Nat) * step.toInt) :
    countValue start step (k + 1) < countValue start step k := by
  have hvalue := toInt_countValue_of_lt hstep hk
  rw [add_succ_mul, ← hvalue] at hout
  have hlast := Int64.toInt_lt (countValue start step k)
  have hgap := Int64.toInt_lt step
  -- the sum is less than `2 ^ 64`, so it wraps just once
  have hwrap : (countValue start step k + step).toInt =
      (countValue start step k).toInt + step.toInt - 2 ^ 64 := by
    rw [Int64.toInt_add, Int.bmod_eq_iff (by decide)]
    omega
  rw [countValue_succ, Int64.lt_iff_toInt_lt, hwrap]
  omega

lemma Value.order_int (a c : Int64) :
    Value.order (some (.int a)) (some (.int c)) = .ok (compare a.toInt c.toInt) := rfl

lemma Value.order_int_eq_gt_iff (a c : Int64) :
    Value.order (some (.int a)) (some (.int c)) = .ok .gt ↔ c.toInt < a.toInt := by
  rw [order_int, Except.ok.injEq, compare_gt_iff_gt]

lemma Value.exists_order_int_iff (a c : Int64) :
    (∃ order, Value.order (some (.int a)) (some (.int c)) = .ok order ∧ order ≠ .gt) ↔ a ≤ c := by
  rw [Int64.le_iff_toInt_le, ← Int.compare_ne_gt]
  constructor
  · rintro ⟨_, ⟨⟩, hne⟩
    exact hne
  · intro hne
    exact ⟨_, rfl, hne⟩

lemma Value.calculate_countValue (start step : Int64) (k : Nat) :
    Value.calculate .add (some (.int (countValue start step k))) (some (.int step)) =
      .ok (.int (countValue start step (k + 1))) := by
  rw [countValue_succ]
  rfl

end Counting

/-! ## Loops whose values stay in range -/

variable {σ : Type} [Host σ]

/-- The nodes succeed, given rounds enough, and leave this host. -/
def Document.Succeeds (nodes : List Node) (b : Bindings) (host host' : σ) : Prop :=
  ∃ b', Document.Ends nodes b host (.ok b' host')

/-- Nodes that succeed do so under every limit that is large enough, and leave the bindings as they
found them. -/
lemma Document.Succeeds.exists_run_eq {nodes : List Node} {b : Bindings} {host host' : σ}
    (h : Document.Succeeds nodes b host host') :
    ∃ least, ∀ limit ≥ least, Document.run limit nodes ⟨b, host⟩ = .ok () ⟨b, host'⟩ := by
  obtain ⟨b', hends⟩ := h
  obtain ⟨least, hleast⟩ := hends.exists_forall_le
  refine ⟨least, fun limit hlimit => ?_⟩
  have hending := hleast limit hlimit
  cases hrun : Document.run limit nodes ⟨b, host⟩ with
  | ok _ r =>
    obtain ⟨c, host''⟩ := r
    obtain rfl : c = b := Run.restores_run limit nodes _ _ hrun
    rw [hrun] at hending
    obtain ⟨-, rfl⟩ := EStateM.Result.ok.inj hending
    rfl
  | error early r =>
    rw [hrun] at hending
    cases hending

/-- For finitely many runs that succeed, one limit is large enough. -/
lemma Document.exists_forall_run_eq {nodes : List Node} {b : Nat → Bindings} {host : Nat → σ}
    {n : Nat} (h : ∀ k < n, Document.Succeeds nodes (b k) (host k) (host (k + 1))) :
    ∃ least, ∀ limit ≥ least, ∀ k < n,
      Document.run limit nodes ⟨b k, host k⟩ = .ok () ⟨b k, host (k + 1)⟩ := by
  choose! least hleast using fun k hk => (h k hk).exists_run_eq
  refine ⟨(Finset.range n).sup least, fun limit hlimit k hk => hleast k hk limit ?_⟩
  exact (Finset.le_sup (Finset.mem_range.2 hk)).trans hlimit

namespace LoopHeader.IsCounting

variable {header : LoopHeader} {b : Bindings} {start stop step : Int64}

lemma first_eq (h : header.IsCounting b start stop step) :
    header.start.operandValue b = .ok (.int (countValue start step 0)) := by
  rw [countValue_zero, h.start_eq]

/-- Over all integers, the value after the last round is greater than the limit. -/
lemma order_countRounds (h : header.IsCounting b start stop step)
    (hfits : start.toInt + countRounds start stop step * step.toInt < 2 ^ 63) :
    Value.order (some (.int (countValue start step (countRounds start stop step))))
      (some (.int stop)) = .ok .gt := by
  have hlast : ¬ start.toInt + countRounds start stop step * step.toInt ≤ stop.toInt :=
    fun hle => Nat.lt_irrefl _ ((lt_countRounds_iff h.one_le_step).2 hle)
  rw [Value.order_int_eq_gt_iff, toInt_countValue h.one_le_step hfits]
  omega

/-- In each of its rounds the variable is not greater than the limit. -/
lemma countValue_le (h : header.IsCounting b start stop step) {k : Nat}
    (hk : k < countRounds start stop step) : countValue start step k ≤ stop := by
  rw [Int64.le_iff_toInt_le, toInt_countValue_of_lt h.one_le_step hk]
  exact (lt_countRounds_iff h.one_le_step).1 hk

/-- If the bodies of so many rounds succeed, and the next value is greater than the limit, the loop
has entered its body with these values, and succeeds. -/
lemma ending_and_entries_of_forall (h : header.IsCounting b start stop step) {body : List Node}
    {n limit : Nat} (host : Nat → σ) (hround : ∀ k < n, countValue start step k ≤ stop)
    (hlast : Value.order (some (.int (countValue start step n))) (some (.int stop)) = .ok .gt)
    (hbody : ∀ k < n,
      Document.run limit body ⟨(header.name, some (.int (countValue start step k))) :: b, host k⟩ =
        .ok () ⟨(header.name, some (.int (countValue start step k))) :: b, host (k + 1)⟩)
    (hlimit : n < limit) :
    Run.ending (Document.run limit [.loop header body] ⟨b, host 0⟩) = .ok b (host n) ∧
      Run.entries limit header (Document.run limit body) ⟨b, host 0⟩ =
        (List.range n).map fun k =>
          ⟨(header.name, some (.int (countValue start step k))) :: b, host k⟩ := by
  have hwatched := Run.loop_watch_eq_ok (v := fun k => .int (countValue start step k))
    h.first_eq h.stop_eq h.step_eq
    (fun k hk => (Value.exists_order_int_iff _ _).2 (hround k hk)) hlast
    (fun k _ => Value.calculate_countValue start step k) hbody hlimit
  have hloop := Run.unwatched_loop (Document.run limit body) limit header ⟨b, host 0⟩
  rw [hwatched] at hloop
  constructor
  · simp only [Document.run, Node.run, bind_pure_unit, ← hloop]
    rfl
  · rw [Run.entries, hwatched]
    rfl

/-- Let `n` be the number of rounds over all integers.  If the value after the last round is in range,
and the `n` runs of the body succeed one after the other, the loop succeeds after just these: at the
`k`-th entry of the body its variable is the start plus `k` steps, with no step wrapped.  A loop
whose start is greater than its limit succeeds without an entry.  In either case the loop leaves the
bindings as it found them. -/
theorem ending_and_entries (h : header.IsCounting b start stop step) (body : List Node) :
    let n := countRounds start stop step
    let current (k : Nat) : Bindings := (header.name, some (.int (countValue start step k))) :: b
    (start.toInt + n * step.toInt < 2 ^ 63 → ∀ host : Nat → σ,
        (∀ k < n, Document.Succeeds body (current k) (host k) (host (k + 1))) →
        (∀ k < n, (countValue start step k).toInt = start.toInt + k * step.toInt) ∧
          ∃ least, ∀ limit ≥ least,
            Run.ending (Document.run limit [.loop header body] ⟨b, host 0⟩) = .ok b (host n) ∧
              Run.entries limit header (Document.run limit body) ⟨b, host 0⟩ =
                (List.range n).map fun k => ⟨current k, host k⟩) ∧
      (stop < start → ∀ (host : σ), ∀ limit > 0,
        Run.ending (Document.run limit [.loop header body] ⟨b, host⟩) = .ok b host ∧
          Run.entries limit header (Document.run limit body) ⟨b, host⟩ = []) := by
  intro n current
  constructor
  · intro hfits host hbody
    refine ⟨fun k hk => toInt_countValue_of_lt h.one_le_step hk, ?_⟩
    obtain ⟨least, hleast⟩ := Document.exists_forall_run_eq hbody
    refine ⟨max least (n + 1), fun limit hlimit => ?_⟩
    have hbodies := hleast limit ((Nat.le_max_left _ _).trans hlimit)
    have hrounds : n < limit := (Nat.le_max_right _ _).trans hlimit
    exact h.ending_and_entries_of_forall host (fun k hk => h.countValue_le hk)
      (h.order_countRounds hfits) hbodies hrounds
  · intro hlt host limit hlimit
    -- the start is the value that ends the loop, so there is no run of the body to speak of
    have hlast : Value.order (some (.int (countValue start step 0))) (some (.int stop)) =
        .ok .gt := by
      rw [countValue_zero, Value.order_int_eq_gt_iff]
      exact Int64.lt_iff_toInt_lt.1 hlt
    exact h.ending_and_entries_of_forall (fun _ => host) (by simp) hlast (by simp) hlimit

/-- A loop whose value after the last round is the last but one in range. -/
def edgeHeader : LoopHeader :=
  ⟨"i", .number (.int 9223372036854775800), .number (.int 9223372036854775805),
    some (.number (.int 3))⟩

lemma isCounting_edgeHeader :
    edgeHeader.IsCounting [] 9223372036854775800 9223372036854775805 3 :=
  ⟨rfl, rfl, rfl, by decide⟩

/-- A body with a loop over the same variable. -/
def hidingBody : List Node :=
  [.loop ⟨"i", .number (.int 1), .number (.int 2), none⟩ [.echo [.variable "i", .string ","]],
    .echo [.variable "i", .string ";"]]

/-- The hosts before the first run of this body, after it, and after the second. -/
def edgeHost : Nat → Buffer
  | 0 => .ofParams ∅ ∅ ∅
  | 1 => { Buffer.ofParams ∅ ∅ ∅ with output := "1,2,9223372036854775800;" }
  | _ => { Buffer.ofParams ∅ ∅ ∅ with
      output := "1,2,9223372036854775800;1,2,9223372036854775803;" }

theorem ending_edgeLoop :
    (∃ least, ∀ limit ≥ least,
      Run.ending (Document.run limit [.loop edgeHeader hidingBody] ⟨[], edgeHost 0⟩) =
          .ok [] (edgeHost 2) ∧
        Run.entries limit edgeHeader (Document.run limit hidingBody) ⟨[], edgeHost 0⟩ =
          [⟨[("i", some (.int 9223372036854775800))], edgeHost 0⟩,
            ⟨[("i", some (.int 9223372036854775803))], edgeHost 1⟩]) ∧
      ∀ limit > 0, Run.entries limit ⟨"i", .number (.int 2), .number (.int 1), none⟩
        (Document.run limit hidingBody) ⟨[], edgeHost 0⟩ = [] := by
  have hback : LoopHeader.IsCounting ⟨"i", .number (.int 2), .number (.int 1), none⟩ [] 2 1 1 :=
    ⟨rfl, rfl, rfl, by decide⟩
  have hfirst : Document.Succeeds hidingBody [("i", some (.int 9223372036854775800))] (edgeHost 0)
      (edgeHost 1) := ⟨[("i", some (.int 9223372036854775800))], ⟨3, by cbv⟩, by simp⟩
  have hsecond : Document.Succeeds hidingBody [("i", some (.int 9223372036854775803))] (edgeHost 1)
      (edgeHost 2) := ⟨[("i", some (.int 9223372036854775803))], ⟨3, by cbv⟩, by simp⟩
  refine ⟨((isCounting_edgeHeader.ending_and_entries hidingBody).1 (by decide) edgeHost ?_).2, ?_⟩
  · intro k hk
    have hlt : k < 2 := Nat.lt_of_lt_of_eq hk (by decide)
    obtain rfl | rfl : k = 0 ∨ k = 1 := by omega
    · exact hfirst
    · exact hsecond
  · intro limit hlimit
    exact ((hback.ending_and_entries hidingBody).2 (by decide) (edgeHost 0) limit hlimit).2

end LoopHeader.IsCounting

/-! ## Loops whose values leave the range -/

@[simp] lemma Bindings.value_cons_self (name : String) (v : Value) (b : Bindings) :
    Bindings.value name ((name, some v) :: b) = .ok v := by
  simp [value, peek_cons, Slot.value, Except.map]

/-- The values of its variable with which a loop enters its body, in order. -/
def Run.entryValues (limit : Nat) (header : LoopHeader) (body : EStateM Stop (Run σ) Unit)
    (r : Run σ) : List (Except RunError Value) :=
  (entries limit header body r).map fun entered => entered.bindings.value header.name

/-- The values are integers from `start` to `stop`, each greater than those before it. -/
def CountsWithin (start stop : Int64) (values : List (Except RunError Value)) : Prop :=
  ∃ ns : List Int64, values = ns.map (fun n => .ok (.int n)) ∧
    (∀ n ∈ ns, start ≤ n ∧ n ≤ stop) ∧ ns.Pairwise (· < ·)

section CountsWithin

variable {start stop : Int64} {ns : List Int64}

lemma countsWithin_map_iff :
    CountsWithin start stop (ns.map fun n => .ok (.int n)) ↔
      (∀ n ∈ ns, start ≤ n ∧ n ≤ stop) ∧ ns.Pairwise (· < ·) := by
  have hinjective : Function.Injective fun n : Int64 => (.ok (.int n) : Except RunError Value) := by
    rintro n m ⟨⟩
    rfl
  constructor
  · rintro ⟨ms, hmap, hrange⟩
    rw [hinjective.list_map hmap]
    exact hrange
  · exact fun hrange => ⟨ns, rfl, hrange⟩

end CountsWithin

namespace LoopHeader.IsCounting

variable {header : LoopHeader} {b : Bindings} {start stop step : Int64}

/-- However a loop ends, at its `k`-th entry the variable is the start plus `k` steps in 64 bits, and
not greater than the limit. -/
lemma exists_entryValues (h : header.IsCounting b start stop step) (limit : Nat) (body : List Node)
    (host : σ) :
    ∃ m, Run.entryValues limit header (Document.run limit body) ⟨b, host⟩ =
        ((List.range m).map (countValue start step)).map (fun n => .ok (.int n)) ∧
      ∀ k < m, countValue start step k ≤ stop := by
  obtain ⟨m, hround, hbindings⟩ := @Run.exists_rounds_entries σ (Document.run limit body) b
    header.name (.int stop) (.int step) (fun k => .int (countValue start step k))
    (Run.restores_run limit body) (Value.calculate_countValue start step) limit host []
  refine ⟨m, ?_, fun k hk => (Value.exists_order_int_iff _ _).1 (hround k hk)⟩
  rw [← Run.entries_eq h.first_eq h.stop_eq h.step_eq] at hbindings
  have hvalues := congrArg (List.map (Bindings.value header.name)) hbindings
  simpa [Run.entryValues, Function.comp_def] using hvalues

/-- If the value after the last round is in range, the values of the rounds go up from the start to
the limit. -/
lemma countsWithin_of_fits (h : header.IsCounting b start stop step)
    (hfits : start.toInt + countRounds start stop step * step.toInt < 2 ^ 63) (limit : Nat)
    (body : List Node) (host : σ) :
    CountsWithin start stop
      (Run.entryValues limit header (Document.run limit body) ⟨b, host⟩) := by
  obtain ⟨m, hvalues, hstop⟩ := h.exists_entryValues limit body host
  -- there is no entry after the rounds: the next value is greater than the limit
  have hm : m ≤ countRounds start stop step := by
    by_contra hlt
    have hle := (Value.exists_order_int_iff _ _).2 (hstop _ (Nat.lt_of_not_le hlt))
    rw [h.order_countRounds hfits] at hle
    obtain ⟨_, ⟨⟩, hne⟩ := hle
    exact hne rfl
  have hexact (k : Nat) (hk : k < m) :
      (countValue start step k).toInt = start.toInt + k * step.toInt :=
    toInt_countValue_of_lt h.one_le_step (Nat.lt_of_lt_of_le hk hm)
  have hpos : 0 < step.toInt := h.one_le_step
  rw [hvalues, countsWithin_map_iff]
  constructor
  · intro n hn
    obtain ⟨k, hmem, rfl⟩ := List.mem_map.1 hn
    have hk : k < m := List.mem_range.1 hmem
    have hsteps : 0 ≤ k * step.toInt := Int.mul_nonneg (by omega) (by omega)
    rw [Int64.le_iff_toInt_le, hexact k hk]
    exact ⟨by omega, hstop k hk⟩
  · rw [List.pairwise_map]
    refine List.pairwise_lt_range.imp_of_mem ?_
    intro j k hj hk hlt
    rw [Int64.lt_iff_toInt_lt, hexact j (List.mem_range.1 hj), hexact k (List.mem_range.1 hk)]
    have hsteps : j * step.toInt < k * step.toInt :=
      Int.mul_lt_mul_of_pos_right (by omega) hpos
    omega

/-- If the value after the last round is out of range, a loop with an empty body enters it once more,
with a value below that of the last round. -/
lemma not_countsWithin_of_not_fits (h : header.IsCounting b start stop step)
    (hout : 2 ^ 63 ≤ start.toInt + countRounds start stop step * step.toInt) (host : σ) :
    ∃ limit, ¬ CountsWithin start stop
      (Run.entryValues limit header (Document.run limit []) ⟨b, host⟩) := by
  have hstart := Int64.toInt_lt start
  -- without a round the value after the last one is the start, which is in range
  obtain ⟨n, hn⟩ : ∃ n, countRounds start stop step = n + 1 := by
    refine Nat.exists_eq_succ_of_ne_zero fun hzero => ?_
    rw [hzero] at hout
    omega
  rw [hn] at hout
  have hlast : n < countRounds start stop step := by omega
  have hwrapped := countValue_succ_lt h.one_le_step hlast hout
  have hround (k : Nat) (hk : k < n + 2) : countValue start step k ≤ stop := by
    by_cases hkn : k < n + 1
    · exact h.countValue_le (by omega)
    · obtain rfl : k = n + 1 := by omega
      exact Int64.le_of_lt (Int64.lt_of_lt_of_le hwrapped (h.countValue_le hlast))
  have hentries : Run.entries (n + 2) header (Document.run (n + 2) []) ⟨b, host⟩ =
      (List.range (n + 2)).map fun k =>
        ⟨(header.name, some (.int (countValue start step k))) :: b, host⟩ :=
    Run.entries_of_forall (v := fun k => .int (countValue start step k)) (fun _ => host)
      h.first_eq h.stop_eq h.step_eq
      (fun k hk => (Value.exists_order_int_iff _ _).2 (hround k hk))
      (fun k _ => Value.calculate_countValue start step k) (fun _ _ => rfl)
  refine ⟨n + 2, fun hwithin => ?_⟩
  have hvalues : Run.entryValues (n + 2) header (Document.run (n + 2) []) ⟨b, host⟩ =
      ((List.range (n + 2)).map (countValue start step)).map (fun n => .ok (.int n)) := by
    simp [Run.entryValues, hentries]
  rw [hvalues, countsWithin_map_iff] at hwithin
  have hup := List.pairwise_iff_getElem.1 hwithin.2 n (n + 1) (by simp) (by simp) (by omega)
  simp only [List.getElem_map, List.getElem_range] at hup
  exact absurd hup (Int64.not_lt.2 (Int64.le_of_lt hwrapped))

/-- At the `k`-th entry of its body the variable of a loop is the start plus `k` steps in 64 bits,
and not greater than the limit.  Every body sees integers from the start to the limit that go up, if
and only if the value after the last round is in range; if it is not, the empty body does not. -/
theorem countsWithin_entryValues_iff (h : header.IsCounting b start stop step) (host : σ) :
    (∀ (limit : Nat) (body : List Node), ∃ m,
        Run.entryValues limit header (Document.run limit body) ⟨b, host⟩ =
            ((List.range m).map (countValue start step)).map (fun n => .ok (.int n)) ∧
          ∀ k < m, countValue start step k ≤ stop) ∧
      ((∀ (limit : Nat) (body : List Node), CountsWithin start stop
          (Run.entryValues limit header (Document.run limit body) ⟨b, host⟩)) ↔
        start.toInt + countRounds start stop step * step.toInt < 2 ^ 63) ∧
      (2 ^ 63 ≤ start.toInt + countRounds start stop step * step.toInt →
        ∃ limit, ¬ CountsWithin start stop
          (Run.entryValues limit header (Document.run limit []) ⟨b, host⟩)) := by
  have hempty (hout : 2 ^ 63 ≤ start.toInt + countRounds start stop step * step.toInt) :=
    h.not_countsWithin_of_not_fits hout host
  refine ⟨fun limit body => h.exists_entryValues limit body host, ⟨fun hwithin => ?_, ?_⟩, hempty⟩
  · by_contra hout
    obtain ⟨limit, hnot⟩ := hempty (Int.not_lt.1 hout)
    exact hnot (hwithin limit [])
  · exact fun hfits limit body => h.countsWithin_of_fits hfits limit body host

theorem countsWithin_edgeLoop :
    edgeHeader.IsCounting [] 9223372036854775800 9223372036854775805 3 ∧
      ∀ (limit : Nat) (body : List Node), CountsWithin 9223372036854775800 9223372036854775805
        (Run.entryValues limit edgeHeader (Document.run limit body) ⟨[], Buffer.ofParams ∅ ∅ ∅⟩) :=
  ⟨isCounting_edgeHeader,
    (isCounting_edgeHeader.countsWithin_entryValues_iff (Buffer.ofParams ∅ ∅ ∅)).2.1.2 (by decide)⟩

/-- A loop from 2 to 5 whose first step is out of range. -/
def overstepHeader : LoopHeader :=
  ⟨"i", .number (.int 2), .number (.int 5), some (.number (.int 9223372036854775807))⟩

/-- A body that writes the variable. -/
def overstepBody : List Node := [.echo [.variable "i", .string " "]]

lemma entryValues_overstepLoop :
    Run.entryValues 4 overstepHeader (Document.run 4 overstepBody) ⟨[], Buffer.ofParams ∅ ∅ ∅⟩ =
      [2, -9223372036854775807, 0].map fun n => .ok (.int n) := by
  cbv

/-- The first step leads this loop below its start, and the third past its limit. -/
theorem not_countsWithin_overstepLoop :
    overstepHeader.IsCounting [] 2 5 9223372036854775807 ∧
      Run.ending (Document.run 4 [.loop overstepHeader overstepBody]
          ⟨[], Buffer.ofParams ∅ ∅ ∅⟩) =
        .ok [] { Buffer.ofParams ∅ ∅ ∅ with output := "2 -9223372036854775807 0 " } ∧
      ¬ CountsWithin 2 5 (Run.entryValues 4 overstepHeader (Document.run 4 overstepBody)
        ⟨[], Buffer.ofParams ∅ ∅ ∅⟩) := by
  refine ⟨⟨rfl, rfl, rfl, by decide⟩, by cbv, ?_⟩
  rw [entryValues_overstepLoop, countsWithin_map_iff]
  rintro ⟨hrange, -⟩
  have hsecond : (2 : Int64) ≤ -9223372036854775807 := (hrange _ (by simp)).1
  exact absurd hsecond (by decide)

end LoopHeader.IsCounting

end PageScript
