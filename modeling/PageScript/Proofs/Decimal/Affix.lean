import PageScript.Decimal.Affix
import Mathlib.Data.List.TakeWhile
/-!
# Affixes, piece by piece

An affix is a sequence of pieces: characters that stand for themselves, and quoted runs.  Its text
tells its pieces, for a run ends at the next quote.  The two readers of affixes, the one that splits
an affix off a pattern and the one that gives its meaning, both follow the pieces, though the second
takes two quotes in a row for one quote wherever they stand.
-/

namespace PageScript.Decimal

/-- A piece of an affix. -/
inductive Piece where
  /-- A character outside quotes: one without a meaning of its own in the number part. -/
  | plain (c : Char) (hc : isPatternChar c = false)
  /-- A run of characters between two quotes. -/
  | quoted (run : List Char) (hrun : '\'' ∉ run)
deriving DecidableEq

namespace Piece

/-- The currency sign outside quotes. -/
def currency : Piece := .plain '¤' (by decide)

/-- The percent sign outside quotes. -/
def percent : Piece := .plain '%' (by decide)

/-- The per mille sign outside quotes. -/
def perMille : Piece := .plain '‰' (by decide)

/-- The text of a piece. -/
def text : Piece → List Char
  | plain c _ => [c]
  | quoted run _ => '\'' :: (run ++ ['\''])

/-- The factor that a percent or per mille sign asks for. -/
def factor? (p : Piece) : Option ℕ :=
  if p = percent then some 100 else if p = perMille then some 1000 else none

@[simp] lemma factor?_quoted (run : List Char) (hrun : '\'' ∉ run) :
    (quoted run hrun).factor? = none := rfl

@[simp] lemma currency_eq_plain {c : Char} {hc : isPatternChar c = false} :
    currency = plain c hc ↔ c = '¤' := by
  rw [currency, plain.injEq, eq_comm]

@[simp] lemma currency_ne_quoted {run : List Char} {hrun : '\'' ∉ run} :
    currency ≠ quoted run hrun := nofun

end Piece

lemma ne_quote {c : Char} (hc : isPatternChar c = false) : c ≠ '\'' := by
  rintro rfl
  exact absurd hc (by decide)

/-- The text of an affix. -/
def affixText (ps : List Piece) : List Char := ps.flatMap Piece.text

/-- The characters that an affix stands for; `joined` says whether a quoted run with characters in
it comes right before, with nothing but quoted runs in between.  Two quotes in a row are one quote:
those of a run without characters, and those between one run and the next. -/
def unquoted (joined : Bool) : List Piece → List Char
  | [] => []
  | .plain c _ :: ps => c :: unquoted false ps
  | .quoted run _ :: ps =>
    if joined then '\'' :: (run ++ unquoted true ps)
    else if run = [] then '\'' :: unquoted false ps
    else run ++ unquoted true ps

@[simp] lemma affixText_nil : affixText [] = [] := rfl

@[simp] lemma affixText_plain (c : Char) (hc : isPatternChar c = false) (ps : List Piece) :
    affixText (.plain c hc :: ps) = c :: affixText ps := rfl

@[simp] lemma affixText_quoted (run : List Char) (hrun : '\'' ∉ run) (ps : List Piece) :
    affixText (.quoted run hrun :: ps) = '\'' :: (run ++ '\'' :: affixText ps) := by
  simp [affixText, Piece.text]

/-- A run ends at the first quote. -/
lemma append_quote_inj {run run' rest rest' : List Char} (h : '\'' ∉ run) (h' : '\'' ∉ run')
    (heq : run ++ '\'' :: rest = run' ++ '\'' :: rest') : run = run' ∧ rest = rest' := by
  induction run generalizing run' with
  | nil =>
    cases run' with
    | nil => exact ⟨rfl, (List.cons.inj heq).2⟩
    | cons d run' => exact absurd (List.cons.inj heq).1 (List.ne_of_not_mem_cons h')
  | cons c run ih =>
    cases run' with
    | nil => exact absurd (List.cons.inj heq).1.symm (List.ne_of_not_mem_cons h)
    | cons d run' =>
      simp only [List.cons_append, List.cons.injEq] at heq
      obtain ⟨rfl, heq⟩ := heq
      obtain ⟨rfl, hrest⟩ :=
        ih (List.not_mem_of_not_mem_cons h) (List.not_mem_of_not_mem_cons h') heq
      exact ⟨rfl, hrest⟩

/-- The text of an affix tells its pieces. -/
theorem affixText_injective : Function.Injective affixText := by
  intro ps
  induction ps with
  | nil =>
    rintro ⟨⟩ h
    · rfl
    · next q qs => cases q <;> simp at h
  | cons p ps ih =>
    rintro ⟨⟩ h
    · cases p <;> simp at h
    next q qs =>
    cases p with
    | plain c hc =>
      cases q with
      | plain d hd =>
        obtain ⟨rfl, htext⟩ := List.cons.inj h
        rw [ih htext]
      | quoted run hrun =>
        rw [affixText_plain, affixText_quoted] at h
        exact absurd (List.cons.inj h).1 (ne_quote hc)
    | quoted run hrun =>
      cases q with
      | plain d hd =>
        rw [affixText_plain, affixText_quoted] at h
        exact absurd (List.cons.inj h).1.symm (ne_quote hd)
      | quoted run' hrun' =>
        rw [affixText_quoted, affixText_quoted] at h
        obtain ⟨rfl, htext⟩ := append_quote_inj hrun hrun' (List.cons.inj h).2
        rw [ih htext]

/-! ## Where an affix ends -/

/-- What may follow an affix: nothing, or a character of the number part. -/
def EndsAffix (rest : List Char) : Prop :=
  ∀ c ∈ rest.head?, isPatternChar c ∧ c ≠ '\''

lemma splitAffix_run {run : List Char} (h : '\'' ∉ run) (rest : List Char) :
    splitAffix true (run ++ '\'' :: rest) =
      (splitAffix false rest).map fun (affix, rest) => (run ++ '\'' :: affix, rest) := by
  induction run with
  | nil => simp [splitAffix]
  | cons c run ih =>
    obtain ⟨hc, hrun⟩ : '\'' ≠ c ∧ '\'' ∉ run := by simpa using h
    rw [List.cons_append, splitAffix, if_neg hc.symm, Bool.true_or, if_pos rfl, ih hrun,
      Option.map_map]
    rfl

/-- An affix is split off where it ends. -/
theorem splitAffix_affixText (ps : List Piece) {rest : List Char} (hrest : EndsAffix rest) :
    splitAffix false (affixText ps ++ rest) = some (affixText ps, rest) := by
  induction ps with
  | nil =>
    cases rest with
    | nil => rfl
    | cons c rest =>
      obtain ⟨hc, hquote⟩ := hrest c rfl
      simp [splitAffix, hc, hquote]
  | cons p ps ih =>
    cases p with
    | plain c hc => simp [splitAffix, ne_quote hc, hc, ih]
    | quoted run hrun => simp [splitAffix, splitAffix_run hrun, ih]

/-- Whether a text is an affix, or if `quoted` is set, the rest of one whose first run is open. -/
def IsAffixText : Bool → List Char → Prop
  | false, s => ∃ ps, affixText ps = s
  | true, s => ∃ run ps, '\'' ∉ run ∧ run ++ '\'' :: affixText ps = s

namespace IsAffixText

variable {c : Char} {s : List Char}

lemma nil : IsAffixText false [] := ⟨[], rfl⟩

lemma plain (hc : isPatternChar c = false) : IsAffixText false s → IsAffixText false (c :: s) := by
  rintro ⟨ps, rfl⟩
  exact ⟨.plain c hc :: ps, rfl⟩

lemma opening : IsAffixText true s → IsAffixText false ('\'' :: s) := by
  rintro ⟨run, ps, hrun, rfl⟩
  exact ⟨.quoted run hrun :: ps, affixText_quoted run hrun ps⟩

lemma closing : IsAffixText false s → IsAffixText true ('\'' :: s) := by
  rintro ⟨ps, rfl⟩
  exact ⟨[], ps, by simp, rfl⟩

lemma inside (hc : c ≠ '\'') : IsAffixText true s → IsAffixText true (c :: s) := by
  rintro ⟨run, ps, hrun, rfl⟩
  exact ⟨c :: run, ps, List.not_mem_cons_of_ne_of_not_mem hc.symm hrun, rfl⟩

end IsAffixText

/-- What is split off a pattern is an affix, and it ends there. -/
theorem splitAffix_eq_some {quoted : Bool} {s affix rest : List Char}
    (h : splitAffix quoted s = some (affix, rest)) :
    IsAffixText quoted affix ∧ affix ++ rest = s ∧ EndsAffix rest := by
  fun_induction splitAffix quoted s generalizing affix rest with
  | case1 => simp at h
  | case2 quoted hquoted =>
    obtain ⟨rfl, rfl⟩ := Prod.mk.inj (Option.some.inj h)
    rw [Bool.not_eq_true] at hquoted
    exact ⟨hquoted ▸ .nil, rfl, by simp [EndsAffix]⟩
  | case3 quoted tail ih =>
    obtain ⟨⟨affix, rest⟩, hsplit, heq⟩ := Option.map_eq_some_iff.1 h
    obtain ⟨rfl, rfl⟩ := Prod.mk.inj heq
    obtain ⟨haffix, rfl, hrest⟩ := ih hsplit
    refine ⟨?_, rfl, hrest⟩
    cases quoted with
    | false => exact haffix.opening
    | true => exact haffix.closing
  | case4 quoted c tail hquote hc ih =>
    obtain ⟨⟨affix, rest⟩, hsplit, heq⟩ := Option.map_eq_some_iff.1 h
    obtain ⟨rfl, rfl⟩ := Prod.mk.inj heq
    obtain ⟨haffix, rfl, hrest⟩ := ih hsplit
    refine ⟨?_, rfl, hrest⟩
    cases quoted with
    | false => exact haffix.plain (by simpa using hc)
    | true => exact haffix.inside hquote
  | case5 quoted c tail hquote hc =>
    obtain ⟨rfl, rfl⟩ := Prod.mk.inj (Option.some.inj h)
    obtain ⟨hquoted, hpattern⟩ : quoted = false ∧ isPatternChar c := by simpa using hc
    refine ⟨hquoted ▸ .nil, rfl, fun d hd => ?_⟩
    obtain rfl : c = d := by simpa using hd
    exact ⟨hpattern, hquote⟩

/-! ## What an affix means -/

namespace Affix

/-- What an affix means, behind a piece as `joined` says: nothing if there is a currency sign outside
quotes, else its characters and the factors of its signs. -/
def ofPieces? (joined : Bool) (ps : List Piece) : Option Affix :=
  if .currency ∈ ps then none else some ⟨unquoted joined ps, ps.filterMap Piece.factor?⟩

lemma read?_true_cons {c : Char} (hc : c ≠ '\'') (s : List Char) :
    read? true (c :: s) = (read? true s).map (cons c) := by
  rw [read?, if_pos rfl]
  · rintro tail rfl
    exact absurd rfl hc
  · exact hc

lemma read?_run {run : List Char} (h : '\'' ∉ run) (s : List Char) :
    read? true (run ++ s) = (read? true s).map fun a => ⟨run ++ a.text, a.factors⟩ := by
  induction run with
  | nil => simp
  | cons c run ih =>
    have hc : c ≠ '\'' := (List.ne_of_not_mem_cons h).symm
    rw [List.cons_append, read?_true_cons hc, ih (List.not_mem_of_not_mem_cons h), Option.map_map]
    rfl

/-- A quote that no other follows opens or closes a run. -/
lemma read?_quote_cons {quoted : Bool} {c : Char} (hc : c ≠ '\'') (s : List Char) :
    read? quoted ('\'' :: c :: s) = read? (!quoted) (c :: s) := by
  rw [read?]
  rintro tail heq
  exact absurd (List.cons.inj heq).1 hc

/-- A character outside quotes stands for itself, and may be a sign. -/
lemma read?_plain {c : Char} (hc : isPatternChar c = false) {s : List Char} {ps : List Piece}
    (h : read? false s = ofPieces? false ps) :
    read? false (c :: s) = ofPieces? false (.plain c hc :: ps) := by
  rw [read?, if_neg Bool.false_ne_true, h]
  · unfold ofPieces?
    by_cases hcurrency : c = '¤'
    · subst hcurrency
      simp
    by_cases hin : Piece.currency ∈ ps
    · simp [hin, hcurrency]
    · have hnone : Piece.currency ∉ Piece.plain c hc :: ps := by simp [hin, hcurrency]
      rw [if_neg hin, if_neg hnone]
      by_cases hpercent : c = '%'
      · subst hpercent
        simp [unquoted, Piece.factor?, Piece.percent, consSign]
      by_cases hmille : c = '‰'
      · subst hmille
        simp [unquoted, Piece.factor?, Piece.percent, Piece.perMille, consSign]
      · simp [unquoted, Piece.factor?, Piece.percent, Piece.perMille, cons, hpercent, hmille,
          hcurrency]
  · rintro tail rfl
    exact absurd hc (by decide)
  · exact ne_quote hc

lemma ofPieces?_plain (c : Char) (hc : isPatternChar c = false) (ps : List Piece) :
    ofPieces? true (.plain c hc :: ps) = ofPieces? false (.plain c hc :: ps) := rfl

/-- A run adds characters, but neither signs nor factors. -/
lemma ofPieces?_quoted {joined joined' : Bool} {run : List Char} {hrun : '\'' ∉ run}
    {ps : List Piece} {f : List Char → List Char}
    (h : unquoted joined (.quoted run hrun :: ps) = f (unquoted joined' ps)) :
    ofPieces? joined (.quoted run hrun :: ps) =
      (ofPieces? joined' ps).map fun a => ⟨f a.text, a.factors⟩ := by
  unfold ofPieces?
  rw [h, List.filterMap_cons_none rfl]
  by_cases hin : Piece.currency ∈ ps <;> simp [hin]

/-- Reading an affix gives what its pieces mean.  A quote that closes a run is read with what follows
it, for it may be the first of two. -/
theorem read?_affixText (ps : List Piece) :
    read? false (affixText ps) = ofPieces? false ps ∧
      read? true ('\'' :: affixText ps) = ofPieces? true ps := by
  induction ps with
  | nil => exact ⟨rfl, rfl⟩
  | cons p ps ih =>
    obtain ⟨hfalse, htrue⟩ := ih
    cases p with
    | plain c hc =>
      have hplain := read?_plain hc hfalse
      refine ⟨hplain, ?_⟩
      rw [affixText_plain, read?_quote_cons (ne_quote hc), ofPieces?_plain]
      exact hplain
    | quoted run hrun =>
      rw [affixText_quoted]
      constructor
      -- The reader takes a run of no characters for two quotes in a row, and opens any other run.
      · cases run with
        | nil =>
          have hquote : unquoted false (.quoted [] hrun :: ps) = '\'' :: unquoted false ps := rfl
          rw [ofPieces?_quoted hquote, List.nil_append, read?, hfalse]
          rfl
        | cons c run =>
          have hc : c ≠ '\'' := (List.ne_of_not_mem_cons hrun).symm
          have hcons :
              unquoted false (.quoted (c :: run) hrun :: ps) = c :: run ++ unquoted true ps := rfl
          rw [ofPieces?_quoted hcons, List.cons_append, read?_quote_cons hc, ← List.cons_append,
            Bool.not_false, read?_run hrun, htrue]
      -- The quote that closed the run before and the one that opens this run are two in a row.
      · have hjoined :
            unquoted true (.quoted run hrun :: ps) = '\'' :: run ++ unquoted true ps := rfl
        rw [ofPieces?_quoted hjoined, read?, read?_run hrun, htrue, Option.map_map]
        rfl

end Affix

end PageScript.Decimal
