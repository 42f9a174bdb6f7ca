import PageScript.Proofs.Text.Line
import PageScript.Settings
/-!
# Reading an assignment

An assignment is cut at its first equals sign, and what is before it is its name.  It is malformed
if there is no such sign, or if the name is missing or has a blank in it, and a value between
quotes is what the quotes enclose, whatever it holds.  A text that is not malformed gives one
assignment.
-/

namespace PageScript

/-- What it means for a text to have something wrong with it as an assignment. -/
inductive AssignmentFault.IsFaultOf : AssignmentFault → List Char → Prop
  /-- There is no equals sign. -/
  | noEquals {s : List Char} (h : '=' ∉ s) : (noEquals s).IsFaultOf s
  /-- There are only blanks before the equals sign. -/
  | noName {front value : List Char} (h : ∀ c ∈ front, Text.isBlank c) :
      (noName (front ++ '=' :: value)).IsFaultOf (front ++ '=' :: value)
  /-- What is before the first equals sign, without the blanks around it, has a blank in it. -/
  | blankInName {left name right value : List Char} {blank : Char}
      (hleft : ∀ c ∈ left, Text.isBlank c) (hname : Text.IsTrimmed name)
      (hright : ∀ c ∈ right, Text.isBlank c) (hequals : '=' ∉ left ++ name ++ right)
      (hmem : blank ∈ name) (hblank : Text.isBlank blank) :
      (blankInName name).IsFaultOf (left ++ name ++ right ++ '=' :: value)

namespace Assignment

/-- `Means written value` holds if what is written so, without blanks around it, is the value
`value`. -/
inductive Means : List Char → List Char → Prop
  /-- Double quotes are not part of the value that they enclose. -/
  | quoted (value : List Char) : Means ('"' :: (value ++ ['"'])) value
  /-- Any other value is what is written. -/
  | plain {value : List Char} (h : ∀ body, value ≠ '"' :: (body ++ ['"'])) : Means value value

/-- What it means for a text to give an assignment: there is its name, which has no blank and no
equals sign in it, an equals sign and its value, and blanks anywhere around them. -/
inductive IsGivenBy : Assignment → List Char → Prop
  | intro {left name right before written after value : List Char}
      (hleft : ∀ c ∈ left, Text.isBlank c) (hright : ∀ c ∈ right, Text.isBlank c)
      (hne : name ≠ []) (hname : ∀ c ∈ name, Text.isBlank c = false) (hequals : '=' ∉ name)
      (hbefore : ∀ c ∈ before, Text.isBlank c) (hafter : ∀ c ∈ after, Text.isBlank c)
      (hwritten : Text.IsTrimmed written) (hvalue : Means written value) :
      IsGivenBy ⟨name, value⟩ (left ++ name ++ right ++ '=' :: (before ++ written ++ after))

variable {s front : List Char}

/-- Quotes around a value are dropped, and nothing in it is a quote that ends it. -/
lemma unquote_quoted (value : List Char) : unquote ('"' :: (value ++ ['"'])) = value := by
  rw [unquote, List.getLast?_concat, if_pos rfl, List.dropLast_concat]

lemma means_unquote (written : List Char) : Means written (unquote written) := by
  unfold unquote
  split
  · next body =>
    split
    · next hlast =>
      obtain ⟨value, rfl⟩ := List.getLast?_eq_some_iff.1 hlast
      rw [List.dropLast_concat]
      exact .quoted value
    · next hlast =>
      refine .plain fun value hvalue => hlast ?_
      rw [(List.cons.inj hvalue).2, List.getLast?_concat]
  · next hquote => exact .plain fun value => hquote _

lemma Means.unquote_eq {written value : List Char} (h : Means written value) :
    unquote written = value := by
  cases h with
  | quoted => exact unquote_quoted value
  | plain h =>
    have hself := means_unquote written
    generalize unquote written = value at hself
    cases hself with
    | quoted => exact absurd rfl (h value)
    | plain => rfl

lemma read_of_notMem (h : '=' ∉ s) : read s = .error (.noEquals s) := by
  have hdrop : s.dropWhile (· != '=') = [] := by
    refine List.dropWhile_eq_nil_iff.2 fun c hc => ?_
    simpa using ne_of_mem_of_not_mem hc h
  rw [read, hdrop]

/-- An assignment is cut at its first equals sign. -/
lemma read_cut (h : '=' ∉ front) (value : List Char) :
    read (front ++ '=' :: value) =
      if (Text.trim front).isEmpty then .error (.noName (front ++ '=' :: value))
      else if (Text.trim front).any Text.isBlank then .error (.blankInName (Text.trim front))
      else .ok ⟨Text.trim front, unquote (Text.trim value)⟩ := by
  have hfront : ∀ c ∈ front, (c != '=') = true := fun c hc => by
    simpa using ne_of_mem_of_not_mem hc h
  rw [read, takeWhile_append_cons hfront (by simp), dropWhile_append_cons hfront (by simp)]

/-- A name and a value in quotes are read back, whatever the value holds. -/
lemma read_quoted {name before after : List Char} (hne : name ≠ [])
    (hname : ∀ c ∈ name, Text.isBlank c = false) (hequals : '=' ∉ name)
    (hbefore : ∀ c ∈ before, Text.isBlank c) (hafter : ∀ c ∈ after, Text.isBlank c)
    (value : List Char) :
    read (name ++ before ++ '=' :: (after ++ '"' :: (value ++ ['"']))) = .ok ⟨name, value⟩ := by
  have htrim : Text.trim (name ++ before) = name := by
    rw [Text.trim_append_right hbefore, (Text.IsTrimmed.of_forall hname).trim_eq]
  have hfront : '=' ∉ name ++ before := by
    refine List.mem_append.not.2 (not_or.2 ⟨hequals, fun hmem => ?_⟩)
    exact absurd (hbefore _ hmem) (by decide)
  have hquoted : Text.IsTrimmed ('"' :: (value ++ ['"'])) :=
    .enclosed (by decide) (by decide) value
  have hany : name.any Text.isBlank = false := by simpa using hname
  rw [read_cut hfront, htrim, if_neg (by simpa using hne), hany, if_neg (by decide),
    Text.trim_append_left hafter, hquoted.trim_eq, unquote_quoted]

/-- The reader reports what is wrong with an assignment, and nothing else. -/
theorem read_error_iff {fault : AssignmentFault} : read s = .error fault ↔ fault.IsFaultOf s := by
  constructor
  · intro h
    by_cases hmem : '=' ∈ s
    · obtain ⟨front, value, rfl, hfront⟩ := List.eq_append_cons_of_mem hmem
      rw [read_cut hfront] at h
      split at h
      · next hempty =>
        cases h
        exact .noName (Text.trim_eq_nil_iff.1 (List.isEmpty_iff.1 hempty))
      · split at h
        · next hany =>
          cases h
          obtain ⟨left, right, hleft, hright, hcut⟩ := Text.exists_eq_trim_between front
          obtain ⟨blank, hblank, hisBlank⟩ := List.any_eq_true.1 hany
          have hequals : '=' ∉ left ++ Text.trim front ++ right := hcut ▸ hfront
          have hfault : (AssignmentFault.blankInName (Text.trim front)).IsFaultOf
              (left ++ Text.trim front ++ right ++ '=' :: value) :=
            .blankInName hleft (Text.isTrimmed_trim front) hright hequals hblank hisBlank
          rwa [← hcut] at hfault
        · cases h
    · rw [read_of_notMem hmem] at h
      cases h
      exact .noEquals hmem
  · intro h
    cases h with
    | noEquals h => exact read_of_notMem h
    | noName h =>
      have hfront : '=' ∉ _ := fun hmem => absurd (h _ hmem) (by decide)
      rw [read_cut hfront, Text.trim_of_blanks h]
      rfl
    | blankInName hleft hname hright hequals hmem hblank =>
      have hne : _ ≠ [] := List.ne_nil_of_mem hmem
      rw [read_cut hequals, hname.trim_between hleft hright, if_neg (by simpa using hne),
        if_pos (List.any_eq_true.2 ⟨_, hmem, hblank⟩)]

/-- The reader reads the assignment that a text gives, and no other text. -/
theorem read_eq_ok_iff {a : Assignment} : read s = .ok a ↔ a.IsGivenBy s := by
  constructor
  · intro h
    by_cases hmem : '=' ∈ s
    · obtain ⟨front, value, rfl, hfront⟩ := List.eq_append_cons_of_mem hmem
      rw [read_cut hfront] at h
      split at h
      · cases h
      next hempty =>
      split at h
      · cases h
      next hany =>
      obtain rfl := Except.ok.inj h
      obtain ⟨left, right, hleft, hright, hcut⟩ := Text.exists_eq_trim_between front
      obtain ⟨before, after, hbefore, hafter, hvalue⟩ := Text.exists_eq_trim_between value
      have hequals : '=' ∉ Text.trim front := by
        rw [hcut, List.mem_append, List.mem_append] at hfront
        exact fun hmem => hfront (.inl (.inr hmem))
      have hgiven : IsGivenBy ⟨Text.trim front, unquote (Text.trim value)⟩
          (left ++ Text.trim front ++ right ++ '=' :: (before ++ Text.trim value ++ after)) :=
        .intro hleft hright (by simpa using hempty) (by simpa using hany) hequals hbefore hafter
          (Text.isTrimmed_trim value) (means_unquote _)
      rwa [← hcut, ← hvalue] at hgiven
    · rw [read_of_notMem hmem] at h
      cases h
  · rintro ⟨hleft, hright, hne, hname, hequals, hbefore, hafter, hwritten, hvalue⟩
    next left name right before written after value =>
    have hfront : '=' ∉ left ++ name ++ right := by
      have hblank {blanks : List Char} (h : ∀ c ∈ blanks, Text.isBlank c) : '=' ∉ blanks :=
        fun hmem => absurd (h _ hmem) (by decide)
      simp [hblank hleft, hequals, hblank hright]
    rw [read_cut hfront, (Text.IsTrimmed.of_forall hname).trim_between hleft hright,
      hwritten.trim_between hbefore hafter, hvalue.unquote_eq, if_neg (by simpa using hne),
      if_neg (by simpa using hname)]

end Assignment

end PageScript
