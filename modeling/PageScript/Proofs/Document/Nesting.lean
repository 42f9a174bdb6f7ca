import PageScript.Proofs.Document.Accepted
import Mathlib
/-!
# Pages whose loops do not nest

Each tag of a page may be in order where the page is not: an end tag stands where no loop is open,
or the page ends inside a loop.  Whether this is so, and with how many loops left open, is a matter
of counting the tags that open a loop and the end tags.

The reader does not count, but keeps the open loops on a stack.  How many there are after a run of
tags, if there is no end tag too many, is what the height of the stack is there; and it is the
difference of the two counts.
-/

namespace PageScript

namespace Tag

/-- Whether the tag opens a loop. -/
def isLoopStart : Tag → Bool
  | loopStart _ => true
  | echo _ | loopEnd => false

/-- Whether the tag ends a loop. -/
def isLoopEnd : Tag → Bool
  | loopEnd => true
  | echo _ | loopStart _ => false

/-- The number of tags that open a loop. -/
def starts (tags : List Tag) : Nat := tags.countP isLoopStart

/-- The number of end tags. -/
def ends (tags : List Tag) : Nat := tags.countP isLoopEnd

/-- The number of loops that are open after the tags if `n` are open before them.  There is none
where an end tag finds no open loop. -/
def openAfter : Nat → List Tag → Option Nat
  | n, [] => some n
  | n, echo _ :: tags => openAfter n tags
  | n, loopStart _ :: tags => openAfter (n + 1) tags
  | 0, loopEnd :: _ => none
  | n + 1, loopEnd :: tags => openAfter n tags

/-! ## Counting -/

@[simp] lemma starts_nil : starts [] = 0 := rfl

@[simp] lemma ends_nil : ends [] = 0 := rfl

@[simp] lemma starts_cons (tag : Tag) (tags : List Tag) :
    starts (tag :: tags) = starts tags + if tag.isLoopStart then 1 else 0 :=
  List.countP_cons

@[simp] lemma ends_cons (tag : Tag) (tags : List Tag) :
    ends (tag :: tags) = ends tags + if tag.isLoopEnd then 1 else 0 :=
  List.countP_cons

variable {n m : Nat} {tags : List Tag}

/-- What is open after the tags is what they open and do not end. -/
lemma add_starts_of_openAfter (h : openAfter n tags = some m) :
    n + starts tags = m + ends tags := by
  fun_induction openAfter n tags with
  | case1 n =>
    obtain rfl := Option.some.inj h
    rfl
  | case2 n elements tags ih => simpa [isLoopStart, isLoopEnd] using ih h
  | case3 n header tags ih =>
    have hopen := ih h
    simp [isLoopStart, isLoopEnd]
    omega
  | case4 => simp at h
  | case5 n tags ih =>
    have hopen := ih h
    simp [isLoopStart, isLoopEnd]
    omega

/-- The tags behind others begin with the loops that those leave open. -/
lemma openAfter_append (n : Nat) (front rest : List Tag) :
    openAfter n (front ++ rest) = (openAfter n front).bind fun m => openAfter m rest := by
  fun_induction openAfter n front with
  | case1 n => rfl
  | case2 n elements front ih => exact ih
  | case3 n header front ih => exact ih
  | case4 front => rfl
  | case5 n front ih => exact ih

/-- An end tag finds no open loop exactly if some tags at the front have too many end tags. -/
lemma openAfter_eq_none_iff :
    openAfter n tags = none ↔ ∃ front, front <+: tags ∧ n + starts front < ends front := by
  constructor
  · intro h
    fun_induction openAfter n tags with
    | case1 => simp at h
    | case2 n elements tags ih =>
      obtain ⟨front, hfront, hmore⟩ := ih h
      exact ⟨.echo elements :: front, by simpa using hfront, by simpa [isLoopStart, isLoopEnd]⟩
    | case3 n header tags ih =>
      obtain ⟨front, hfront, hmore⟩ := ih h
      refine ⟨.loopStart header :: front, by simpa using hfront, ?_⟩
      simp [isLoopStart, isLoopEnd]
      omega
    | case4 tags => exact ⟨[.loopEnd], by simp, by simp [isLoopStart, isLoopEnd]⟩
    | case5 n tags ih =>
      obtain ⟨front, hfront, hmore⟩ := ih h
      refine ⟨.loopEnd :: front, by simpa using hfront, ?_⟩
      simp [isLoopStart, isLoopEnd]
      omega
  · rintro ⟨front, ⟨rest, rfl⟩, hmore⟩
    -- otherwise a number of loops is open after the front, and fewer than none
    rw [openAfter_append, Option.bind_eq_none_iff]
    intro m hm
    have hopen := add_starts_of_openAfter hm
    omega

end Tag

/-! ## Tags one after another -/

namespace Document

open Scanner

/-- `Tagged ts tags` holds if the tokens `ts` are runs of text and tags, and the tags, each of them
well-formed by itself, are `tags`. -/
inductive Tagged : List Token → List Tag → Prop
  /-- There is nothing. -/
  | nil : Tagged [] []
  /-- A run of text, and what follows it. -/
  | text {ts : List Token} {tags : List Tag} (run : String) (rest : Tagged ts tags) :
      Tagged (.text run :: ts) tags
  /-- A tag, and what follows it. -/
  | tag {tag : Tag} {spelled ts : List Token} {tags : List Tag} (spelling : tag.Spelling spelled)
      (rest : Tagged ts tags) : Tagged (.tagOpen :: (spelled ++ .tagClose :: ts)) (tag :: tags)

/-- What is made of a page, by the number of loops that are open at its end. -/
inductive Concludes : Option Nat → Except SyntaxError Document → Prop
  /-- There is an end tag too many. -/
  | unbalanced : Concludes none (.error .unbalancedEnd)
  /-- All loops are closed. -/
  | closed (d : Document) : Concludes (some 0) (.ok d)
  /-- Loops are left open. -/
  | unclosed (n : Nat) : Concludes (some (n + 1)) (.error (.unclosedLoops (n + 1)))

variable {loops : List OpenLoop} {done : List Node} {s t u : Scanner} {ts : List Token}
  {tags : List Tag}

/-- The end of the page finds all the loops that are open. -/
lemma concludes_endOfInput (h : s.take = .ok (.endOfInput, t)) :
    Concludes (some loops.length) (readFrom loops done s) := by
  cases loops with
  | nil =>
    rw [readFrom_endOfInput h]
    exact .closed _
  | cons loop loops =>
    have hread : readFrom (loop :: loops) done s = .error (.unclosedLoops (loops.length + 1)) := by
      rw [readFrom]
      split <;> simp_all
    rw [hread]
    exact .unclosed _

/-- An end tag outside all loops is refused. -/
lemma readFrom_unbalanced (h : s.take = .ok (.tagOpen, t))
    (htag : Tag.read (t.setMode .tag) = .ok (.loopEnd, u)) :
    readFrom [] done s = .error .unbalancedEnd := by
  rw [readFrom]
  split <;> simp_all
  split <;> simp_all

/-- A reader of well-formed tags counts the loops that they leave open on its stack.  The induction
is on the tags: each of them changes the height of the stack as it changes the count. -/
theorem concludes_of_tagged (htags : Tagged ts tags) (hs : s.Reads (ts ++ [.endOfInput]) u) :
    Concludes (Tag.openAfter loops.length tags) (readFrom loops done s) := by
  induction htags generalizing loops done s with
  | nil =>
    obtain ⟨t, ht, -⟩ := Reads.cons_iff.1 hs
    exact concludes_endOfInput ht
  | text run rest ih =>
    obtain ⟨t, ht, hs⟩ := reads_text_iff.1 hs
    rw [readFrom_text ht]
    exact ih hs
  | @tag tag spelled ts tags spelling rest ih =>
    rw [List.cons_append, List.append_assoc, List.cons_append] at hs
    obtain ⟨v, w, hv, hw, hs⟩ := Tag.exists_read_of_spelling spelling hs
    cases tag with
    | echo elements =>
      rw [readFrom_echo hv hw]
      exact ih hs
    | loopStart header =>
      rw [readFrom_loopStart hv hw]
      exact @ih ((header, done) :: loops) [] _ hs
    | loopEnd =>
      cases loops with
      | nil =>
        rw [readFrom_unbalanced hv hw]
        exact .unbalanced
      | cons loop loops =>
        rw [readFrom_loopEnd hv hw]
        exact ih hs

/-- Let each tag of a page be well-formed by itself.  The page is refused for an end tag too many if
and only if some of its tags, from the first one on, have more end tags than they open loops.
Otherwise it is refused for the loops left open, with their number, if all of its tags together open
more loops than they end; and if they open as many, it is a document. -/
theorem read_nesting {page : List Char}
    (hstream : pageTokens page = (ts ++ [.endOfInput], none)) (htags : Tagged ts tags) :
    (read page = .error .unbalancedEnd ↔
        ∃ front, front <+: tags ∧ Tag.starts front < Tag.ends front) ∧
      ((∀ front, front <+: tags → Tag.ends front ≤ Tag.starts front) →
        (Tag.ends tags < Tag.starts tags →
            read page = .error (.unclosedLoops (Tag.starts tags - Tag.ends tags))) ∧
          (Tag.starts tags = Tag.ends tags → ∃ d, read page = .ok d)) := by
  obtain ⟨u, hs⟩ := tokens_eq_iff.1 hstream
  have hread : Concludes (Tag.openAfter 0 tags) (read page) :=
    @concludes_of_tagged [] [] _ _ _ _ htags hs
  have hnone : Tag.openAfter 0 tags = none ↔
      ∃ front, front <+: tags ∧ Tag.starts front < Tag.ends front := by
    simpa using @Tag.openAfter_eq_none_iff 0 tags
  rw [← hnone]
  constructor
  · generalize Tag.openAfter 0 tags = count, read page = result at hread
    cases hread <;> simp
  · intro hfronts
    cases hcount : Tag.openAfter 0 tags with
    | none =>
      obtain ⟨front, hfront, hmore⟩ := hnone.1 hcount
      exact absurd (hfronts front hfront) (Nat.not_le.2 hmore)
    | some n =>
      have hopen := Tag.add_starts_of_openAfter hcount
      rw [hcount] at hread
      generalize read page = result at hread
      cases hread with
      | closed d => exact ⟨fun hmore => by omega, fun _ => ⟨d, rfl⟩⟩
      | unclosed n =>
        have hn : Tag.starts tags - Tag.ends tags = n + 1 := by omega
        rw [hn]
        exact ⟨fun _ => rfl, fun heq => by omega⟩

/-- A page with an end tag too many, though there are as many as tags that open a loop. -/
def crossedPage : List Char :=
  "\x7b$for i 1 2$\x7da\x7b$END$\x7d\x7b$end$\x7d\x7b$FOR j 0 i$\x7d".toList

/-- The opening tag of its first loop. -/
def firstHeader : LoopHeader := ⟨"i", .number (.int 1), .number (.int 2), none⟩

/-- The opening tag of its second loop. -/
def secondHeader : LoopHeader := ⟨"j", .number (.int 0), .variable "i", none⟩

/-- The tags of the page. -/
def crossedTags : List Tag := [.loopStart firstHeader, .loopEnd, .loopEnd, .loopStart secondHeader]

/-- The tokens of the page before its end. -/
def crossedTokens : List Token :=
  [.tagOpen, .name "for", .name "i", .number (.int 1), .number (.int 2), .tagClose, .text "a",
    .tagOpen, .name "END", .tagClose, .tagOpen, .name "end", .tagClose,
    .tagOpen, .name "FOR", .name "j", .number (.int 0), .name "i", .tagClose]

lemma tagged_crossedTokens : Tagged crossedTokens crossedTags := by
  have hfirst : (Tag.loopStart firstHeader).Spelling _ :=
    @Tag.Spelling.loopStart "for" _ (by decide) ⟨by decide, by decide⟩
  have hsecond : (Tag.loopStart secondHeader).Spelling _ :=
    @Tag.Spelling.loopStart "FOR" _ (by decide) ⟨by decide, by decide⟩
  have hend : Tag.loopEnd.Spelling [.name "END"] := .loopEnd (by decide)
  have hend' : Tag.loopEnd.Spelling [.name "end"] := .loopEnd (by decide)
  exact .tag hfirst (.text "a" (.tag hend (.tag hend' (.tag hsecond .nil))))

theorem read_crossedPage :
    pageTokens crossedPage = (crossedTokens ++ [.endOfInput], none) ∧
      Tagged crossedTokens crossedTags ∧ read crossedPage = .error .unbalancedEnd := by
  have hstream : pageTokens crossedPage = (crossedTokens ++ [.endOfInput], none) := by cbv
  refine ⟨hstream, tagged_crossedTokens, ?_⟩
  rw [(read_nesting hstream tagged_crossedTokens).1]
  exact ⟨crossedTags.take 3, List.take_prefix _ _, by decide⟩

end Document

end PageScript
