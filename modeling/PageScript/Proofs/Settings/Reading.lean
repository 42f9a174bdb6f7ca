import PageScript.Proofs.Text.Line
import PageScript.Settings
/-!
# Reading settings line by line

A line is read for what it says between its blanks, so neither blanks around it nor the way in which
it ends make a difference.  What has been read before a line has no influence on how it is read,
but for the store that assignments are for.
-/

namespace PageScript

/-! ## Settings -/

namespace Settings

@[simp] lemma merge_empty (s : Settings) : s.merge .empty = s := by
  have union_empty (p : Params) : p ∪ ∅ = p := by
    refine Std.ExtTreeMap.ext_getElem? fun k => ?_
    simp [Std.ExtTreeMap.getElem?_union]
  simp only [merge, empty, union_empty]

lemma merge_assoc (s t u : Settings) : (s.merge t).merge u = s.merge (t.merge u) := by
  have union_assoc (p q r : Params) : p ∪ q ∪ r = p ∪ (q ∪ r) := by
    refine Std.ExtTreeMap.ext_getElem? fun k => ?_
    simp only [Std.ExtTreeMap.getElem?_union, Option.or_assoc]
  simp only [merge, union_assoc]

lemma merge_set (s t : Settings) (store : Store) (name value : String) :
    s.merge (t.set store name value) = (s.merge t).set store name value := by
  have union_insert (p q : Params) : p ∪ q.insert name value = (p ∪ q).insert name value := by
    refine Std.ExtTreeMap.ext_getElem? fun k => ?_
    simp only [Std.ExtTreeMap.getElem?_union, Std.ExtTreeMap.getElem?_insert]
    split <;> simp
  cases store <;> simp only [merge, set, union_insert]

/-- A malformed line that comes `n` lines later. -/
def LineError.later (n : Nat) (e : LineError) : LineError := { e with line := n + e.line }

namespace Progress

/-! ## Lines -/

lemma count_readHeader (line rest : List Char) (p : Progress) :
    (p.readHeader line rest).count = p.count := by
  unfold readHeader
  split
  · dsimp only
    split <;> rfl
  · rfl

lemma count_readAssignment (line : List Char) (p : Progress) :
    (p.readAssignment line).count = p.count := by
  unfold readAssignment
  split
  · rfl
  · split <;> rfl

lemma count_readLine (p : Progress) (line : List Char) : (p.readLine line).count = p.count + 1 := by
  unfold readLine
  dsimp only
  split
  · rfl
  · split
    · rfl
    · split
      · exact count_readHeader ..
      · exact count_readAssignment ..

/-- A line is read for what is between its blanks. -/
lemma readLine_congr {line line' : List Char} (h : Text.trim line = Text.trim line')
    (p : Progress) : p.readLine line = p.readLine line' := by
  rw [readLine, readLine, h]

lemma readLine_cons {line rest : List Char} {c : Char} (h : Text.trim line = c :: rest)
    (p : Progress) :
    p.readLine line =
      if c = '#' ∨ c = ';' then { p with count := p.count + 1 }
      else if c = '[' then { p with count := p.count + 1 }.readHeader (c :: rest) rest
      else { p with count := p.count + 1 }.readAssignment (c :: rest) := by
  rw [readLine, h]

/-- After the name of a store in brackets assignments are for that store. -/
lemma readLine_header {name : List Char} {store : Store} (h : storeOf? name = some store)
    (p : Progress) :
    p.readLine ('[' :: (name ++ [']'])) = { p with store := some store, count := p.count + 1 } := by
  have htrimmed : Text.IsTrimmed ('[' :: (name ++ [']'])) :=
    .enclosed (by decide) (by decide) name
  rw [readLine_cons htrimmed.trim_eq, if_neg (by decide), if_pos rfl, readHeader, if_pos (by simp)]
  dsimp only
  rw [List.dropLast_concat, h]

/-! ## Texts -/

/-- Reads the lines of a text. -/
def readText (p : Progress) (text : List Char) : Progress := (Text.lines text).foldl readLine p

lemma readText_append (p : Progress) (a rest : List Char) :
    p.readText (a ++ '\n' :: rest) = (p.readText (a ++ ['\n'])).readText rest := by
  rw [readText, Text.lines_append, List.foldl_append]
  rfl

/-- A line with its end is read as the line. -/
lemma readText_line {line : List Char} (h : '\n' ∉ line) (p : Progress) :
    p.readText (line ++ ['\n']) = p.readLine line := by
  rw [readText, Text.lines_line h]
  exact readLine_congr (Text.trim_dropReturn line) p

lemma foldl_linesFrom_end (p : Progress) (pending a : List Char) :
    (Text.linesFrom pending (a ++ ['\n'])).foldl readLine p =
      { (Text.linesFrom pending a).foldl readLine p with count := p.count + (a.count '\n' + 1) } := by
  induction a generalizing p pending with
  | nil =>
    have hline : p.readLine (Text.dropReturn pending.reverse) = p.readLine pending.reverse :=
      readLine_congr (Text.trim_dropReturn _) p
    have hended : (Text.linesFrom pending ([] ++ ['\n'])).foldl readLine p =
        p.readLine pending.reverse := hline
    rw [hended, Text.linesFrom]
    split
    · next hempty =>
      rw [List.isEmpty_iff.1 hempty]
      rfl
    · simp only [List.foldl_cons, List.foldl_nil, List.count_nil, Nat.zero_add,
        ← count_readLine p pending.reverse]
  | cons c a ih =>
    by_cases hc : c = '\n'
    · subst hc
      simp only [List.cons_append, Text.linesFrom, List.foldl_cons, ih, count_readLine,
        List.count_cons_self]
      simp only [Nat.add_assoc, Nat.add_comm 1]
    · simp only [List.cons_append, Text.linesFrom, ih, List.count_cons_of_ne hc]

/-- Another line end behind a text makes no difference but to the number of lines, which is then the
number of line ends. -/
lemma readText_end (p : Progress) (a : List Char) :
    p.readText (a ++ ['\n']) = { p.readText a with count := p.count + (a.count '\n' + 1) } :=
  foldl_linesFrom_end p [] a

/-! ## What has been read before -/

/-- What has been read after something else. -/
def after (q p : Progress) : Progress where
  settings := q.settings.merge p.settings
  store := p.store
  errors := q.errors ++ p.errors.map (LineError.later q.count)
  count := q.count + p.count

variable (q p : Progress)

lemma after_report (fault : LineFault) : (q.after p).report fault = q.after (p.report fault) := by
  simp [after, report, LineError.later]

lemma after_readHeader (line rest : List Char) :
    (q.after p).readHeader line rest = q.after (p.readHeader line rest) := by
  unfold readHeader
  split
  · dsimp only
    split
    · rfl
    · exact after_report q { p with store := none } _
  · exact after_report q p _

lemma after_readAssignment (line : List Char) :
    (q.after p).readAssignment line = q.after (p.readAssignment line) := by
  have hstore : (q.after p).store = p.store := rfl
  unfold readAssignment
  rw [hstore]
  cases p.store with
  | none => rfl
  | some store =>
    dsimp only
    cases Assignment.read line with
    | ok a => simp only [after, merge_set]
    | error fault => exact after_report q p _

lemma after_readLine (line : List Char) :
    (q.after p).readLine line = q.after (p.readLine line) := by
  have hcount : { q.after p with count := (q.after p).count + 1 } =
      q.after { p with count := p.count + 1 } := rfl
  unfold readLine
  rw [hcount]
  dsimp only
  split
  · rfl
  · split
    · rfl
    · split
      · exact after_readHeader ..
      · exact after_readAssignment ..

/-- A text is read in the same way whatever has been read before. -/
lemma after_readText (text : List Char) : (q.after p).readText text = q.after (p.readText text) := by
  unfold readText
  induction Text.lines text generalizing p with
  | nil => rfl
  | cons line lines ih => rw [List.foldl_cons, List.foldl_cons, after_readLine, ih]

/-- To go on for the request is to begin again. -/
lemma after_start : q.after start = { q with store := some .request } := by
  simp [after, start]

end Progress

lemma read_eq (text : List Char) :
    read text = ((Progress.start.readText text).settings, (Progress.start.readText text).errors) :=
  rfl

/-- Another line end behind a file makes no difference. -/
lemma read_end (text : List Char) : read (text ++ ['\n']) = read text := by
  rw [read_eq, Progress.readText_end, read_eq]

end Settings

end PageScript
