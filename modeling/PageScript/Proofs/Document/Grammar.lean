import PageScript.Document.Reading
import PageScript.Proofs.Document.WellFormed
import PageScript.Token.Stream
import Mathlib.Data.List.TakeWhile
import Mathlib.Tactic.Lemma
/-!
# The grammar of pages

A document is a sequence of runs of text, echo tags and loops, and the body of a loop is a document
again.  A derivation says how a list of tokens spells a document by these rules.

The rules are unambiguous.  A tag ends at the first tag closing after its opening, and its name says
which tag it is; so a document inside a loop ends at the first end tag that closes no loop within
it.
-/

namespace PageScript

/-! ## Tokens of elements -/

/-- The token that stands for an element in a tag. -/
def Element.token : Element → Token
  | .number n => .number n
  | .string s => .string s
  | .variable name => .name name
  | .function name => .function name
  | .operator c => .operator c

namespace Element

lemma ofToken?_eq_some_iff {token : Token} {e : Element} :
    ofToken? token = some e ↔ token = e.token := by
  constructor
  · intro h
    cases token with
    | text | tagOpen | tagClose | endOfInput => simp [ofToken?] at h
    | name | number | string | operator | function =>
      obtain rfl := Option.some.inj h
      rfl
  · rintro rfl
    cases e <;> rfl

lemma token_injective : Function.Injective token := by
  intro a b h
  have := ofToken?_eq_some_iff.2 h
  rw [ofToken?_eq_some_iff.2 rfl] at this
  exact Option.some.inj this

lemma token_ne_tagOpen (e : Element) : e.token ≠ .tagOpen := by
  cases e <;> simp [token]

lemma token_ne_tagClose (e : Element) : e.token ≠ .tagClose := by
  cases e <;> simp [token]

lemma token_ne_endOfInput (e : Element) : e.token ≠ .endOfInput := by
  cases e <;> simp [token]

end Element

/-! ## Tags -/

/-- What the grammar asks of the opening tag of a loop. -/
structure LoopHeader.IsGrammatical (h : LoopHeader) : Prop where
  /-- The loop variable is not the name of the echo tag. -/
  name_ne : h.name ≠ "="
  /-- Each value is a variable, a number or a string. -/
  isLoopOperand : ∀ e ∈ h.operands, e.isLoopOperand

/-- No name is the equals sign, so what a page can hold is what the grammar asks for. -/
lemma LoopHeader.IsWellFormed.isGrammatical {h : LoopHeader} (hwf : h.IsWellFormed) :
    h.IsGrammatical := by
  refine ⟨?_, hwf.isLoopOperand⟩
  intro hname
  have := hwf.isName
  rw [hname] at this
  exact absurd this (by decide)

/-- `tag.Spelling ts` holds if the tokens `ts` spell the tag between its opening and its closing. -/
inductive Tag.Spelling : Tag → List Token → Prop
  /-- An echo tag has any elements after its name. -/
  | echo (elements : List Element) :
      Spelling (.echo elements) (.name "=" :: elements.map Element.token)
  /-- The opening tag of a loop has the loop variable and two or three values. -/
  | loopStart {word : String} {header : LoopHeader} (hword : upper word = "FOR".toList)
      (hheader : header.IsGrammatical) :
      Spelling (.loopStart header)
        (.name word :: .name header.name :: header.operands.map Element.token)
  /-- An end tag has nothing but its name. -/
  | loopEnd {word : String} (hword : upper word = "END".toList) : Spelling .loopEnd [.name word]

namespace Tag

/-- A word that is the name of another tag, in any case, is not the name of the echo tag. -/
lemma ne_equals {word : String} {name : List Char} (hword : upper word = name)
    (hname : name ≠ ['=']) : word ≠ "=" := by
  rintro rfl
  have hupper : upper "=" = ['='] := by decide
  exact hname (hword.symm.trans hupper)

namespace Spelling

variable {tag tag' : Tag} {ts ts' rest rest' : List Token}

/-- Between its opening and its closing, a tag has names and elements only. -/
lemma exists_element (h : tag.Spelling ts) : ∀ t ∈ ts, ∃ e : Element, t = e.token := by
  have ofName (name : String) : ∃ e : Element, Token.name name = e.token := ⟨.variable name, rfl⟩
  cases h with
  | echo elements =>
    simp only [List.mem_cons, List.mem_map]
    rintro t (rfl | ⟨e, -, rfl⟩)
    · exact ofName _
    · exact ⟨e, rfl⟩
  | loopStart =>
    simp only [List.mem_cons, List.mem_map]
    rintro t (rfl | rfl | ⟨e, -, rfl⟩)
    · exact ofName _
    · exact ofName _
    · exact ⟨e, rfl⟩
  | loopEnd =>
    simp only [List.mem_singleton]
    rintro t rfl
    exact ofName _

lemma tagClose_notMem (h : tag.Spelling ts) : Token.tagClose ∉ ts := by
  intro hmem
  obtain ⟨e, he⟩ := h.exists_element _ hmem
  exact e.token_ne_tagClose he.symm

/-- The tokens of a tag are those of no other tag. -/
lemma tag_unique (h : tag.Spelling ts) (h' : tag'.Spelling ts) : tag = tag' := by
  cases h with
  | echo elements =>
    generalize hts : Token.name "=" :: elements.map Element.token = ts at h'
    cases h' with
    | echo elements' =>
      rw [List.cons.injEq, List.map_inj_right fun _ _ => @Element.token_injective _ _] at hts
      rw [hts.2]
    | loopStart hword =>
      obtain ⟨⟨⟩, -⟩ := List.cons.inj hts
      exact absurd rfl (ne_equals hword (by decide))
    | loopEnd hword =>
      obtain ⟨⟨⟩, -⟩ := List.cons.inj hts
      exact absurd rfl (ne_equals hword (by decide))
  | @loopStart word header hword hheader =>
    generalize hts : Token.name word :: .name header.name :: header.operands.map Element.token = ts
      at h'
    cases h' with
    | echo elements' =>
      obtain ⟨⟨⟩, -⟩ := List.cons.inj hts
      exact absurd rfl (ne_equals hword (by decide))
    | @loopStart word' header' =>
      obtain ⟨name, start, stop, step⟩ := header
      obtain ⟨name', start', stop', step'⟩ := header'
      simp only [LoopHeader.operands, List.map_cons, List.cons.injEq, Token.name.injEq,
        Element.token_injective.eq_iff] at hts
      obtain ⟨-, rfl, rfl, rfl, hstep⟩ := hts
      rw [List.map_inj_right fun _ _ => @Element.token_injective _ _] at hstep
      cases step <;> cases step' <;> simp_all
    | loopEnd => simp at hts
  | @loopEnd word hword =>
    generalize hts : [Token.name word] = ts at h'
    cases h' with
    | echo elements' =>
      obtain ⟨⟨⟩, -⟩ := List.cons.inj hts
      exact absurd rfl (ne_equals hword (by decide))
    | loopStart => simp at hts
    | loopEnd => rfl

/-- A tag ends at the first tag closing, so it is determined by any tokens that begin with it. -/
lemma unique (h : tag.Spelling ts) (h' : tag'.Spelling ts')
    (heq : ts ++ .tagClose :: rest = ts' ++ .tagClose :: rest') :
    tag = tag' ∧ ts = ts' ∧ rest = rest' := by
  have upToClose {us : List Token} (vs : List Token) (hus : Token.tagClose ∉ us) :
      (us ++ .tagClose :: vs).takeWhile (· ≠ .tagClose) = us := by
    rw [List.takeWhile_append_of_pos]
    · simp
    · intro t ht
      simpa using ne_of_mem_of_not_mem ht hus
  have hts : ts = ts' := by
    rw [← upToClose rest h.tagClose_notMem, heq, upToClose rest' h'.tagClose_notMem]
  subst hts
  refine ⟨h.tag_unique h', rfl, ?_⟩
  simpa using heq

end Spelling

end Tag

/-! ## Documents -/

/-- A derivation of a document from the tokens that spell it. -/
inductive Derivation : List Token → Document → Type
  /-- No token spells the empty document. -/
  | nil : Derivation [] []
  /-- A run of text, and what follows it. -/
  | text {ts : List Token} {d : Document} (run : String) (rest : Derivation ts d) :
      Derivation (.text run :: ts) (.text run :: d)
  /-- An echo tag, and what follows it. -/
  | echo {elements : List Element} {tag ts : List Token} {d : Document}
      (spelling : (Tag.echo elements).Spelling tag) (rest : Derivation ts d) :
      Derivation (.tagOpen :: (tag ++ .tagClose :: ts)) (.echo elements :: d)
  /-- A loop around a document, and what follows it. -/
  | loop {header : LoopHeader} {opening inside closing ts : List Token} {body d : Document}
      (start : (Tag.loopStart header).Spelling opening) (inner : Derivation inside body)
      (stop : Tag.loopEnd.Spelling closing) (rest : Derivation ts d) :
      Derivation
        (.tagOpen :: (opening ++ .tagClose ::
          (inside ++ .tagOpen :: (closing ++ .tagClose :: ts))))
        (.loop header body :: d)

namespace Derivation

/-- What may follow a document: nothing, or the end tag of the loop around it. -/
inductive Follow : List Token → Prop
  /-- The page is over. -/
  | nil : Follow []
  /-- The loop around the document ends. -/
  | loopEnd {closing : List Token} (stop : Tag.loopEnd.Spelling closing) (rest : List Token) :
      Follow (.tagOpen :: (closing ++ .tagClose :: rest))

/-- No run of text stands where a document ends. -/
lemma Follow.ne_text {rest : List Token} {run : String} : ¬ Follow (.text run :: rest) := by
  rintro ⟨⟩

/-- Where a document ends, no tag is opened but an end tag. -/
lemma Follow.tag_eq {tag : Tag} {spelled rest : List Token}
    (h : Follow (.tagOpen :: (spelled ++ .tagClose :: rest))) (htag : tag.Spelling spelled) :
    tag = .loopEnd := by
  generalize heq : Token.tagOpen :: (spelled ++ .tagClose :: rest) = ts at h
  cases h with
  | nil => simp at heq
  | loopEnd stop rest' => exact (htag.unique stop (List.cons.inj heq).2).1

/-- A derivation that goes as far as it can is determined by the tokens. -/
theorem unique {ts ts' rest rest' : List Token} {d d' : Document} (a : Derivation ts d)
    (a' : Derivation ts' d') (hrest : Follow rest) (hrest' : Follow rest')
    (heq : ts ++ rest = ts' ++ rest') :
    ts = ts' ∧ d = d' ∧ a ≍ a' := by
  induction a generalizing ts' d' rest rest' with
  | nil =>
    subst heq
    cases a' with
    | nil => exact ⟨rfl, rfl, .rfl⟩
    | text run => exact absurd hrest Follow.ne_text
    | echo spelling =>
      rw [List.cons_append, List.append_assoc] at hrest
      exact absurd (hrest.tag_eq spelling) (by simp)
    | loop start =>
      rw [List.cons_append, List.append_assoc] at hrest
      exact absurd (hrest.tag_eq start) (by simp)
  | text run a ih =>
    cases a' with
    | nil =>
      subst heq
      exact absurd hrest' Follow.ne_text
    | text run' a' =>
      simp only [List.cons_append, List.cons.injEq, Token.text.injEq] at heq
      obtain ⟨rfl, heq⟩ := heq
      obtain ⟨rfl, rfl, ha⟩ := ih a' hrest hrest' heq
      cases ha
      exact ⟨rfl, rfl, .rfl⟩
    | echo => simp at heq
    | loop => simp at heq
  | echo spelling a ih =>
    cases a' with
    | nil =>
      subst heq
      rw [List.cons_append, List.append_assoc] at hrest'
      exact absurd (hrest'.tag_eq spelling) (by simp)
    | text => simp at heq
    | echo spelling' a' =>
      simp only [List.cons_append, List.append_assoc, List.cons.injEq, true_and] at heq
      obtain ⟨⟨⟩, rfl, hts⟩ := spelling.unique spelling' heq
      obtain ⟨rfl, rfl, ha⟩ := ih a' hrest hrest' hts
      cases ha
      exact ⟨rfl, rfl, .rfl⟩
    | loop start' =>
      simp only [List.cons_append, List.append_assoc, List.cons.injEq, true_and] at heq
      exact absurd (spelling.unique start' heq).1 (by simp)
  | loop start inner stop a ihinner ih =>
    cases a' with
    | nil =>
      subst heq
      rw [List.cons_append, List.append_assoc] at hrest'
      exact absurd (hrest'.tag_eq start) (by simp)
    | text => simp at heq
    | echo spelling' =>
      simp only [List.cons_append, List.append_assoc, List.cons.injEq, true_and] at heq
      exact absurd (start.unique spelling' heq).1 (by simp)
    | loop start' inner' stop' a' =>
      simp only [List.cons_append, List.append_assoc, List.cons.injEq, true_and] at heq
      obtain ⟨⟨⟩, rfl, hinside⟩ := start.unique start' heq
      obtain ⟨rfl, rfl, hinner⟩ := ihinner inner' (.loopEnd stop _) (.loopEnd stop' _) hinside
      cases hinner
      simp only [List.append_cancel_left_eq, List.cons.injEq, true_and] at hinside
      obtain ⟨-, rfl, hts⟩ := stop.unique stop' hinside
      obtain ⟨rfl, rfl, ha⟩ := ih a' hrest hrest' hts
      cases ha
      exact ⟨rfl, rfl, .rfl⟩

end Derivation

/-- The grammar is unambiguous: a list of tokens has at most one derivation. -/
theorem subsingleton_derivation (ts : List Token) : Subsingleton (Σ d, Derivation ts d) := by
  constructor
  rintro ⟨d, a⟩ ⟨d', a'⟩
  obtain ⟨-, rfl, ha⟩ := a.unique a' .nil .nil rfl
  cases ha
  rfl

end PageScript
