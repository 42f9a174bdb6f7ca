import PageScript.Proofs.Document.Reconstruction
/-!
# Documents are well-formed at every depth

A document has levels: the list of its own nodes, and the body of each loop in it, however deeply
the loop is nested.  What a page is read as is well-formed on all of them, and none of its numbers
is undefined.

The first half is read off the grammar.  For the second it is enough to look at tokens, for each
element of a document is a token of its page, and a numeral is read as a number, which is infinite
at worst.
-/

namespace PageScript

/-! ## Levels -/

mutual

/-- The bodies of the loops in a node, at every depth. -/
def Node.bodies : Node → List Document
  | .text _ | .echo _ => []
  | .loop _ body => body :: Document.bodies body

/-- The bodies of the loops in a document, at every depth. -/
def Document.bodies : List Node → List Document
  | [] => []
  | node :: rest => node.bodies ++ Document.bodies rest

end

namespace Node

/-- Whether a node is a run of text. -/
def isText : Node → Bool
  | .text _ => true
  | .echo _ | .loop .. => false

/-- Whether a page can hold the node, whatever the body of a loop may be. -/
def IsWellFormed : Node → Prop
  | .text run => run ≠ ""
  | .echo elements => ∀ e ∈ elements, e.IsWellFormed
  | .loop header _ => header.IsWellFormed

end Node

namespace Document

variable {d level : Document}

/-- The lists of nodes in a document: its own, and the bodies of its loops at every depth. -/
def levels (d : Document) : List Document := d :: bodies d

/-- What is well-formed is well-formed on every level. -/
lemma IsWellFormed.of_mem_levels (h : IsWellFormed d) (hlevel : level ∈ d.levels) :
    IsWellFormed level := by
  induction h with
  | nil =>
    obtain rfl : level = [] := by simpa [levels, bodies] using hlevel
    exact .nil
  | @text run d nonempty next rest ih =>
    obtain rfl | hbodies := List.mem_cons.1 hlevel
    · exact .text nonempty next rest
    · exact ih (List.mem_cons_of_mem _ (by simpa [bodies, Node.bodies] using hbodies))
  | @echo elements d elements_wf rest ih =>
    obtain rfl | hbodies := List.mem_cons.1 hlevel
    · exact .echo elements_wf rest
    · exact ih (List.mem_cons_of_mem _ (by simpa [bodies, Node.bodies] using hbodies))
  | @loop header body d header_wf inner rest ihinner ih =>
    obtain rfl | hbodies := List.mem_cons.1 hlevel
    · exact .loop header_wf inner rest
    · rw [bodies, Node.bodies, List.mem_append] at hbodies
      obtain hinner | hrest := hbodies
      · exact ihinner hinner
      · exact ih (List.mem_cons_of_mem _ hrest)

/-- Each node of a well-formed document is well-formed by itself. -/
lemma IsWellFormed.of_mem (h : IsWellFormed d) {node : Node} (hnode : node ∈ d) :
    node.IsWellFormed := by
  induction h with
  | nil => simp at hnode
  | text nonempty next rest ih =>
    obtain rfl | hrest := List.mem_cons.1 hnode
    · exact nonempty
    · exact ih hrest
  | echo elements_wf rest ih =>
    obtain rfl | hrest := List.mem_cons.1 hnode
    · exact elements_wf
    · exact ih hrest
  | loop header_wf inner rest _ ih =>
    obtain rfl | hrest := List.mem_cons.1 hnode
    · exact header_wf
    · exact ih hrest

/-- No run of text comes right after another. -/
lemma IsWellFormed.isChain (h : IsWellFormed d) :
    d.IsChain fun a b => a.isText → ¬ b.isText := by
  induction h with
  | nil => exact .nil
  | @text run d nonempty next rest ih =>
    refine List.isChain_cons.2 ⟨fun node hnode _ => ?_, ih⟩
    cases node with
    | text run' => exact absurd hnode (next run')
    | echo | loop => simp [Node.isText]
  | echo elements_wf rest ih => exact List.isChain_cons.2 ⟨by simp [Node.isText], ih⟩
  | loop header_wf inner rest _ ih => exact List.isChain_cons.2 ⟨by simp [Node.isText], ih⟩

end Document

/-! ## Numerals -/

/-- Whether a number is undefined. -/
def Number.isNaN : Number → Bool
  | .int _ => false
  | .double x => x.isNaN

namespace Double

/-- Infinity is the greatest magnitude that rounding gives. -/
lemma nearest_le (num den : Nat) : nearest num den ≤ infinity := Nat.min_le_right _ _

lemma isNaN_ofMagnitude {g : Nat} (negative : Bool) (h : g ≤ infinity) :
    (ofMagnitude negative g).isNaN = false := by
  have hlt : g < 2 ^ (63 : Nat) := lt_of_le_of_lt h (by decide)
  rw [isNaN, magnitude_ofMagnitude hlt]
  exact decide_eq_false (Nat.not_lt.2 h)

end Double

namespace Decimal

lemma scientific_le (n : Nat) (e : Int) : scientific n e ≤ Double.infinity := by
  unfold scientific
  split
  · exact Nat.zero_le _
  split
  · exact le_rfl
  split
  · exact Nat.zero_le _
  · exact Double.nearest_le _ _

lemma isNaN_of_readDouble? {s : List Char} {x : Double} (h : readDouble? s = some x) :
    x.isNaN = false := by
  unfold readDouble? at h
  dsimp only at h
  split at h
  · simp at h
  · obtain ⟨e, -, rfl⟩ := Option.map_eq_some_iff.1 h
    exact Double.isNaN_ofMagnitude _ (scientific_le _ _)

end Decimal

lemma Scan.isNaN_of_number? {s : List Char} {n : Number} (h : number? s = some n) :
    n.isNaN = false := by
  have ofDouble (h : (Decimal.readDouble? s).map Number.double = some n) : n.isNaN = false := by
    obtain ⟨x, hx, rfl⟩ := Option.map_eq_some_iff.1 h
    exact Decimal.isNaN_of_readDouble? hx
  unfold number? at h
  split at h
  · simp at h
  split at h
  · exact ofDouble h
  split at h
  · obtain rfl := Option.some.inj h
    rfl
  · exact ofDouble h

/-! ## Tokens -/

/-- Whether a token is an undefined number. -/
def Token.isNaN : Token → Bool
  | .number n => n.isNaN
  | .text _ | .tagOpen | .tagClose | .name _ | .string _ | .operator _ | .function _
  | .endOfInput => false

namespace Scanner

variable {s t : Scanner} {token : Token} {input rest : List Char}

/-- A number in a tag is what a numeral stands for. -/
lemma number?_of_readTag {n : Number} (h : s.readTag input = (.ok (.number n), rest)) :
    ∃ numeral, Scan.number? numeral = some n := by
  cases readsInTag_of_readTag h with
  | number hnumber => exact ⟨_, hnumber⟩

lemma isNaN_of_take (h : s.take = .ok (token, t)) : token.isNaN = false := by
  cases takes_of_take h with
  | endOfPage | tagOpen | text => rfl
  | inTag _ hread =>
    cases token with
    | number n =>
      obtain ⟨numeral, hn⟩ := number?_of_readTag hread
      exact Scan.isNaN_of_number? hn
    | text | tagOpen | tagClose | name | string | operator | function | endOfInput => rfl

/-- What is true of each token that a scanner reads is true of all that it reads in a row. -/
lemma Reads.forall_mem {p : Token → Prop}
    (hp : ∀ {s t : Scanner} {token : Token}, s.take = .ok (token, t) → p token) {ts : List Token}
    (h : s.Reads ts t) : ∀ token ∈ ts, p token := by
  induction h with
  | nil => simp
  | cons first _ ih => exact List.forall_mem_cons.2 ⟨hp first, ih⟩

end Scanner

/-! ## Elements -/

/-- Whether an element is an undefined number. -/
def Element.isNaN : Element → Bool
  | .number n => n.isNaN
  | .string _ | .variable _ | .function _ | .operator _ => false

lemma Element.isNaN_token (e : Element) : e.token.isNaN = e.isNaN := by
  cases e <;> rfl

/-- Each element of a document is one of the tokens that spell it. -/
lemma Derivation.token_mem {ts : List Token} {d : Document} (a : Derivation ts d) {e : Element}
    (he : e ∈ Document.elements d) : e.token ∈ ts := by
  induction a with
  | nil => simp [Document.elements] at he
  | text run a ih =>
    rw [Document.elements, Node.elements, List.nil_append] at he
    exact List.mem_cons_of_mem _ (ih he)
  | echo spelling a ih =>
    rw [Document.elements, Node.elements, List.mem_append] at he
    cases spelling with
    | echo elements =>
      obtain hnode | hrest := he
      · have := List.mem_map_of_mem (f := Element.token) hnode
        simp [this]
      · simp [ih hrest]
  | loop start inner stop a ihinner ih =>
    rw [Document.elements, Node.elements, List.mem_append, List.mem_append] at he
    cases start with
    | loopStart hword hheader =>
      obtain (hheader | hbody) | hrest := he
      · have := List.mem_map_of_mem (f := Element.token) hheader
        simp [this]
      · simp [ihinner hbody]
      · simp [ih hrest]

namespace Document

open Scanner

variable {page : List Char} {d : Document}

/-- No number on a page is undefined. -/
lemma isNaN_of_read (h : read page = .ok d) : ∀ e ∈ elements d, e.isNaN = false := by
  intro e he
  obtain ⟨ts, u, hts, hcompletes⟩ := completes_of_readFrom h
  cases hcompletes with
  | page a =>
    have htokens : ∀ token ∈ ts ++ [.endOfInput], token.isNaN = false :=
      hts.forall_mem isNaN_of_take
    rw [← e.isNaN_token]
    exact htokens _ (List.mem_append_left _ (a.token_mem he))

/-- What a page is read as is well-formed at every depth.  On each level no run of text is empty or
follows another, each element of a tag is one that a tag can hold, each loop variable is a name and
the values of a loop are no functions and no operators; and nowhere is there an undefined number. -/
theorem wellFormed_levels_of_read (h : read page = .ok d) :
    (∀ level ∈ levels d, (level.IsChain fun a b => a.isText → ¬ b.isText) ∧
      ∀ node ∈ level, node.IsWellFormed) ∧
    ∀ e ∈ elements d, e.isNaN = false := by
  refine ⟨fun level hlevel => ?_, isNaN_of_read h⟩
  have hwf : IsWellFormed level := (isWellFormed_of_read h).of_mem_levels hlevel
  exact ⟨hwf.isChain, fun node hnode => hwf.of_mem hnode⟩

/-- A loop in a loop, with texts on all three levels. -/
theorem wellFormed_levels_nestedDocument :
    read (source nestedDocument) = .ok nestedDocument ∧ (levels nestedDocument).length = 3 ∧
      (∀ level ∈ levels nestedDocument, (level.IsChain fun a b => a.isText → ¬ b.isText) ∧
        ∀ node ∈ level, node.IsWellFormed) ∧
      ∀ e ∈ elements nestedDocument, e.isNaN = false := by
  have hread : read (source nestedDocument) = .ok nestedDocument :=
    readFrom_source isWellFormed_nestedDocument isFinite_nestedDocument (standsAt_ofSource _)
  exact ⟨hread, rfl, wellFormed_levels_of_read hread⟩

end Document

end PageScript
