import PageScript.Proofs.Settings.Assignment
import PageScript.Proofs.Settings.Reading
/-!
# Settings files as they are written

A settings file is written in lines.  A line may give a parameter, with its value in quotes; it may
say in brackets which store the lines after it are for, in any letter case; it may be blank or a
comment; and it may be malformed: an open bracket that is not closed, or no assignment.  There may
be blanks around what a line says, and it ends with a line feed, after a carriage return or not.

Such a file is read as it is written.  The parameters are set in order, each in the store that it is
written for, and each malformed line is reported with its number.  No line but one with the name of
a store has any influence on how the lines after it are read.
-/

namespace PageScript

namespace Settings

/-! ## What a line can say -/

/-- Blanks in a line. -/
structure Blanks where
  chars : List Char
  isBlank : ∀ c ∈ chars, Text.isBlank c
  feed_notMem : '\n' ∉ chars

/-- A name and a value that a line can give. -/
structure Parameter where
  name : List Char
  value : List Char
  name_ne_nil : name ≠ []
  isBlank_name : ∀ c ∈ name, Text.isBlank c = false
  equals_notMem : '=' ∉ name
  head_name : ∀ c ∈ name.head?, c ≠ '#' ∧ c ≠ ';' ∧ c ≠ '['
  feed_notMem : '\n' ∉ value

/-- The name of a store. -/
def storeName : Store → String
  | .request => "request"
  | .persistent => "persistent"
  | .temporary => "temporary"

/-- The name of a store as it can be written in brackets. -/
structure Header where
  store : Store
  spelling : List Char
  toLower_spelling : spelling.map Char.toLower = (storeName store).toList
  before : Blanks
  after : Blanks

/-- A comment. -/
structure Comment where
  mark : Char
  text : List Char
  mark_eq : mark = '#' ∨ mark = ';'
  feed_notMem : '\n' ∉ text

/-- What it means for a line without blanks at its ends to have something wrong with it. -/
inductive LineFault.IsFaultOf : LineFault → List Char → Prop
  /-- A bracket is not closed at the end. -/
  | unterminatedHeader {rest : List Char} (h : rest.getLast? ≠ some ']') :
      (unterminatedHeader ('[' :: rest)).IsFaultOf ('[' :: rest)
  /-- There is no bracket, it is no comment, and it is no assignment. -/
  | badAssignment {c : Char} {rest : List Char} {fault : AssignmentFault}
      (hc : c ≠ '#' ∧ c ≠ ';' ∧ c ≠ '[') (h : fault.IsFaultOf (c :: rest)) :
      (badAssignment fault).IsFaultOf (c :: rest)

/-- What is written in a malformed line. -/
structure Malformed where
  text : List Char
  fault : LineFault
  isFaultOf : fault.IsFaultOf text
  isTrimmed : Text.IsTrimmed text
  feed_notMem : '\n' ∉ text

/-- What is written in a line. -/
inductive Content where
  | blank
  | comment (c : Comment)
  | header (h : Header)
  /-- A parameter, with blanks around its equals sign. -/
  | parameter (d : Parameter) (before after : Blanks)
  | malformed (m : Malformed)

namespace Content

/-- How it is written. -/
def text : Content → List Char
  | blank => []
  | comment c => c.mark :: c.text
  | header h => '[' :: (h.before.chars ++ h.spelling ++ h.after.chars ++ [']'])
  | parameter d before after =>
    d.name ++ before.chars ++ '=' :: (after.chars ++ '"' :: (d.value ++ ['"']))
  | malformed m => m.text

/-- The parameter that is given. -/
def parameter? : Content → Option Parameter
  | parameter d _ _ => some d
  | blank | comment _ | header _ | malformed _ => none

/-- The store that the lines after it are for, if it says so. -/
def store? : Content → Option Store
  | header h => some h.store
  | blank | comment _ | parameter .. | malformed _ => none

/-- What is wrong. -/
def fault? : Content → Option LineFault
  | malformed m => some m.fault
  | blank | comment _ | header _ | parameter .. => none

end Content

/-! ## Files -/

/-- A line without its end. -/
structure Row where
  indent : Blanks
  content : Content
  trailing : Blanks

/-- The line as it is written. -/
def Row.line (r : Row) : List Char := r.indent.chars ++ r.content.text ++ r.trailing.chars

/-- How a line can end. -/
inductive LineEnd where
  | feed
  | returnFeed

/-- The characters of a line end. -/
def LineEnd.text : LineEnd → List Char
  | feed => ['\n']
  | returnFeed => ['\r', '\n']

/-- A settings file; what follows its last line end may be blank. -/
structure File where
  rows : List (Row × LineEnd)
  last : Row

/-- Rows with their line ends. -/
def rowsText (rows : List (Row × LineEnd)) : List Char :=
  rows.flatMap fun (row, ending) => row.line ++ ending.text

/-- The parameters that rows give, each with its store, if the first rows are for `store`. -/
def parametersFrom (store : Store) : List Content → List (Store × Parameter)
  | [] => []
  | c :: rest =>
    (c.parameter?.map (store, ·)).toList ++ parametersFrom (c.store?.getD store) rest

/-- The malformed rows, if the first row has the number `n`. -/
def errorsFrom (n : Nat) (contents : List Content) : List LineError :=
  (contents.zipIdx n).filterMap fun (c, line) => c.fault?.map (⟨line, ·⟩)

namespace File

/-- The text of a file. -/
def text (f : File) : List Char := rowsText f.rows ++ f.last.line

/-- What is written in its lines. -/
def contents (f : File) : List Content := f.rows.map (·.1.content) ++ [f.last.content]

/-- The parameters in a file, in order.  Those at the beginning are for the request. -/
def parameters (f : File) : List (Store × Parameter) := parametersFrom .request f.contents

/-- The malformed lines in a file, in order.  Lines are counted from 1 on. -/
def errors (f : File) : List LineError := errorsFrom 1 f.contents

end File

/-- Sets parameters one after the other. -/
def setAll (parameters : List (Store × Parameter)) (s : Settings) : Settings :=
  parameters.foldl
    (fun s (store, d) => s.set store (String.ofList d.name) (String.ofList d.value)) s

/-! ## Reading a line -/

namespace Header

variable (h : Header)

lemma isBlank_spelling : ∀ c ∈ h.spelling, Text.isBlank c = false := by
  intro c hc
  have hname : (storeName h.store).toList.any Text.isBlank = false := by
    cases h.store <;> rfl
  have hlower : c.toLower ∈ (storeName h.store).toList := by
    rw [← h.toLower_spelling]
    exact List.mem_map_of_mem hc
  by_contra hblank
  rw [Bool.not_eq_false] at hblank
  rw [Text.toLower_of_isBlank hblank] at hlower
  exact absurd hblank (by simp [List.any_eq_false.1 hname c hlower])

/-- A store is found by its name in any letter case, with blanks around it. -/
lemma storeOf?_eq : storeOf? (h.before.chars ++ h.spelling ++ h.after.chars) = some h.store := by
  have htrim := (Text.IsTrimmed.of_forall h.isBlank_spelling).trim_between h.before.isBlank
    h.after.isBlank
  rw [storeOf?, htrim, h.toLower_spelling]
  cases h.store <;> decide

end Header

lemma Parameter.isTrimmed_text (d : Parameter) (before after : Blanks) :
    Text.IsTrimmed (Content.parameter d before after).text := by
  obtain ⟨c, rest, hname⟩ := List.exists_cons_of_ne_nil d.name_ne_nil
  constructor
  · have hc := d.isBlank_name c (by simp [hname])
    simpa [Content.text, hname] using hc
  · have hquote : Text.isBlank '"' = false := by decide
    simpa [Content.text, List.getLast?_append, List.getLast?_cons] using hquote

namespace Progress

variable {p : Progress} {store : Store}

/-- A line that begins with none of the marks is read as an assignment. -/
lemma readLine_assignment (hstore : p.store = some store) {c : Char} {rest : List Char}
    (hc : c ≠ '#' ∧ c ≠ ';' ∧ c ≠ '[') (h : Text.IsTrimmed (c :: rest)) :
    p.readLine (c :: rest) =
      match Assignment.read (c :: rest) with
      | .ok a =>
        { p with
          settings := p.settings.set store (String.ofList a.name) (String.ofList a.value)
          count := p.count + 1 }
      | .error fault => { p with count := p.count + 1 }.report (.badAssignment fault) := by
  obtain ⟨hhash, hsemicolon, hbracket⟩ := hc
  rw [readLine_cons h.trim_eq, if_neg (not_or.2 ⟨hhash, hsemicolon⟩), if_neg hbracket]
  cases hread : Assignment.read (c :: rest) with
  | ok a => simp only [readAssignment, hstore, hread]
  | error fault => simp only [readAssignment, hstore, hread]

lemma readLine_comment (c : Comment) (p : Progress) :
    p.readLine (c.mark :: c.text) = { p with count := p.count + 1 } := by
  have hmark : Text.isBlank c.mark = false := by
    obtain h | h := c.mark_eq <;> rw [h] <;> decide
  obtain ⟨rest, htrim⟩ := Text.exists_trim_cons hmark c.text
  rw [readLine_cons htrim, if_pos c.mark_eq]

lemma readLine_parameter (hstore : p.store = some store) (d : Parameter) (before after : Blanks) :
    p.readLine (Content.parameter d before after).text =
      { p with
        settings := p.settings.set store (String.ofList d.name) (String.ofList d.value)
        count := p.count + 1 } := by
  have hread : Assignment.read (Content.parameter d before after).text = .ok ⟨d.name, d.value⟩ :=
    Assignment.read_quoted d.name_ne_nil d.isBlank_name d.equals_notMem before.isBlank
      after.isBlank d.value
  have htrimmed := d.isTrimmed_text before after
  obtain ⟨c, rest, hname⟩ := List.exists_cons_of_ne_nil d.name_ne_nil
  have hc := d.head_name c (by simp [hname])
  obtain ⟨more, htext⟩ : ∃ more, (Content.parameter d before after).text = c :: more :=
    ⟨_, by rw [Content.text, hname]; rfl⟩
  rw [htext] at hread htrimmed ⊢
  rw [readLine_assignment hstore hc htrimmed, hread]

lemma readLine_malformed (hstore : p.store = some store) (m : Malformed) :
    p.readLine m.text = { p with count := p.count + 1 }.report m.fault := by
  obtain ⟨text, fault, hfault, htrimmed, -⟩ := m
  cases hfault with
  | unterminatedHeader h =>
    rw [readLine_cons htrimmed.trim_eq, if_neg (by decide), if_pos rfl, readHeader, if_neg h]
  | badAssignment hc h =>
    rw [readLine_assignment hstore hc htrimmed, Assignment.read_error_iff.2 h]

/-- What is written in a line is what it is read for. -/
lemma readLine_text (hstore : p.store = some store) (c : Content) :
    p.readLine c.text =
      { settings := setAll (c.parameter?.map (store, ·)).toList p.settings
        store := some (c.store?.getD store)
        errors := p.errors ++ (c.fault?.map (⟨p.count + 1, ·⟩)).toList
        count := p.count + 1 } := by
  have hpassed : { p with count := p.count + 1 } =
      (⟨p.settings, some store, p.errors ++ [], p.count + 1⟩ : Progress) := by
    rw [hstore, List.append_nil]
  cases c with
  | blank => exact hpassed
  | comment c => exact (readLine_comment c p).trans hpassed
  | header h =>
    rw [Content.text, readLine_header h.storeOf?_eq, Content.fault?]
    simp [Content.parameter?, Content.store?, setAll]
  | parameter d before after =>
    rw [readLine_parameter hstore]
    simp [Content.parameter?, Content.store?, Content.fault?, setAll, hstore]
  | malformed m =>
    rw [Content.text, readLine_malformed hstore]
    simp [Content.parameter?, Content.store?, Content.fault?, setAll, report, hstore]

/-- Blanks around it make no difference. -/
lemma readLine_line (p : Progress) (r : Row) : p.readLine r.line = p.readLine r.content.text := by
  refine readLine_congr ?_ p
  rw [Row.line, Text.trim_append_right r.trailing.isBlank, Text.trim_append_left r.indent.isBlank]

end Progress

/-! ## Reading a file -/

lemma setAll_append (first second : List (Store × Parameter)) (s : Settings) :
    setAll (first ++ second) s = setAll second (setAll first s) := List.foldl_append

lemma errorsFrom_cons (n : Nat) (c : Content) (contents : List Content) :
    errorsFrom n (c :: contents) =
      (c.fault?.map (⟨n, ·⟩)).toList ++ errorsFrom (n + 1) contents := by
  rw [errorsFrom, List.zipIdx_cons, List.filterMap_cons]
  dsimp only
  cases c.fault? with
  | none => rfl
  | some fault => rfl

lemma Content.feed_notMem_text (c : Content) : '\n' ∉ c.text := by
  have feed_notMem {s : List Char} (h : ∀ c ∈ s, Text.isBlank c = false) : '\n' ∉ s := by
    intro hmem
    exact absurd (h _ hmem) (by decide)
  cases c with
  | blank => exact List.not_mem_nil
  | comment c =>
    have hmark : '\n' ≠ c.mark := by
      obtain h | h := c.mark_eq <;> rw [h] <;> decide
    simpa [text, hmark] using c.feed_notMem
  | header h =>
    simp [text, h.before.feed_notMem, feed_notMem h.isBlank_spelling, h.after.feed_notMem]
  | parameter d before after =>
    simp [text, feed_notMem d.isBlank_name, before.feed_notMem, after.feed_notMem, d.feed_notMem]
  | malformed m => exact m.feed_notMem

lemma Row.feed_notMem_line (r : Row) : '\n' ∉ r.line := by
  simp [Row.line, r.indent.feed_notMem, r.content.feed_notMem_text, r.trailing.feed_notMem]

namespace Progress

variable {p : Progress} {store : Store}

/-- A line is read as it is, however it ends. -/
lemma readText_line_ending (p : Progress) (r : Row) (ending : LineEnd) (rest : List Char) :
    p.readText (r.line ++ ending.text ++ rest) = (p.readLine r.line).readText rest := by
  cases ending with
  | feed =>
    rw [LineEnd.text, List.append_assoc, List.singleton_append, readText_append,
      readText_line r.feed_notMem_line]
  | returnFeed =>
    have hfeed : '\n' ∉ r.line ++ ['\r'] := by simp [r.feed_notMem_line]
    have hreturn : Text.trim (r.line ++ ['\r']) = Text.trim r.line :=
      Text.trim_append_right (by simp; decide) _
    have hcut : r.line ++ LineEnd.returnFeed.text ++ rest = r.line ++ ['\r'] ++ '\n' :: rest := by
      simp [LineEnd.text]
    rw [hcut, readText_append, readText_line hfeed, readLine_congr hreturn]

lemma readText_rowsText (p : Progress) (rows : List (Row × LineEnd)) (rest : List Char) :
    p.readText (rowsText rows ++ rest) =
      (rows.foldl (fun p (row, _) => p.readLine row.line) p).readText rest := by
  induction rows generalizing p with
  | nil => rfl
  | cons row rows ih =>
    obtain ⟨row, ending⟩ := row
    rw [rowsText, List.flatMap_cons, List.append_assoc, readText_line_ending]
    exact ih _

/-- The run through the rows keeps the store that assignments are for and the number of the line. -/
lemma foldl_readLine_rows (hstore : p.store = some store) (rows : List (Row × LineEnd)) :
    (rows.foldl (fun p (row, _) => p.readLine row.line) p).settings =
        setAll (parametersFrom store (rows.map (·.1.content))) p.settings ∧
      (rows.foldl (fun p (row, _) => p.readLine row.line) p).errors =
        p.errors ++ errorsFrom (p.count + 1) (rows.map (·.1.content)) := by
  induction rows generalizing p store with
  | nil => exact ⟨rfl, by simp [errorsFrom]⟩
  | cons row rows ih =>
    rw [List.foldl_cons, List.map_cons, parametersFrom, setAll_append, errorsFrom_cons,
      ← List.append_assoc]
    dsimp only
    rw [readLine_line, readLine_text hstore]
    exact ih rfl

end Progress

/-- A file is read as what is written in it. -/
lemma read_text (f : File) : read f.text = (setAll f.parameters .empty, f.errors) := by
  have hended : f.text ++ ['\n'] = rowsText (f.rows ++ [(f.last, .feed)]) ++ [] := by
    simp [File.text, rowsText, LineEnd.text]
  have hcontents : f.contents =
      (f.rows ++ [(f.last, LineEnd.feed)]).map fun row => row.1.content := by
    simp [File.contents]
  obtain ⟨hsettings, herrors⟩ := Progress.foldl_readLine_rows (p := .start) rfl
    (f.rows ++ [(f.last, LineEnd.feed)])
  rw [← read_end, hended, read_eq, Progress.readText_rowsText, File.parameters, File.errors,
    hcontents]
  exact Prod.ext hsettings herrors

/-! ## What a file says -/

lemma getElem?_params_set (s : Settings) (store other : Store) (name value name' : String) :
    ((s.set other name' value).params store)[name]? =
      if other = store ∧ name' = name then some value else (s.params store)[name]? := by
  cases store <;> cases other <;> simp [set, params, Std.ExtTreeMap.getElem?_insert]

/-- Each parameter has the value that is written last for it in its store. -/
lemma getElem?_params_setAll (parameters : List (Store × Parameter)) (s : Settings) (store : Store)
    (name : String) :
    ((setAll parameters s).params store)[name]? =
      ((parameters.reverse.find? fun (other, d) => other = store ∧ d.name = name.toList).map
        fun (_, d) => String.ofList d.value).or (s.params store)[name]? := by
  induction parameters generalizing s with
  | nil => rfl
  | cons x parameters ih =>
    obtain ⟨other, d⟩ := x
    rw [setAll, List.foldl_cons, ← setAll, ih, getElem?_params_set, List.reverse_cons,
      List.find?_append, Option.map_or, Option.or_assoc]
    have hname : String.ofList d.name = name ↔ d.name = name.toList := by
      constructor
      · rintro rfl
        rw [String.toList_ofList]
      · intro h
        rw [h, String.ofList_toList]
    by_cases h : other = store ∧ d.name = name.toList
    · simp [h]
    · simp [hname, h]

/-- A settings file is read as it is written, malformed lines aside.  The parameters are those in
the file, set in order, so in each store the last value of a name counts; and each malformed line
is reported once, in order, with its number and what is wrong with it. -/
theorem read_written (f : File) :
    read f.text = (setAll f.parameters .empty, f.errors) ∧
      ∀ (store : Store) (name : String), ((read f.text).1.params store)[name]? =
        (f.parameters.reverse.find? fun (other, d) => other = store ∧ d.name = name.toList).map
          fun (_, d) => String.ofList d.value := by
  refine ⟨read_text f, fun store name => ?_⟩
  have hempty : (empty.params store)[name]? = none := by cases store <;> rfl
  rw [read_text, getElem?_params_setAll, hempty, Option.or_none]

example : (read "a = \"1\"\r\n[nope\n[ Temporary ]\r\n# c\na b=2\na=\"x=\"y\"".toList).2 =
    [⟨2, .unterminatedHeader "[nope".toList⟩,
      ⟨5, .badAssignment (.blankInName "a b".toList)⟩] := by decide

/-! ## What can be written -/

/-- Any line that has something wrong with it, blanks aside, can stand in a file. -/
theorem exists_row_of_isFaultOf {line : List Char} {fault : LineFault} (hfeed : '\n' ∉ line)
    (h : fault.IsFaultOf (Text.trim line)) :
    ∃ r : Row, r.line = line ∧ r.content.fault? = some fault := by
  obtain ⟨left, right, hleft, hright, hline⟩ := Text.exists_eq_trim_between line
  rw [hline, List.mem_append, List.mem_append, not_or, not_or] at hfeed
  obtain ⟨⟨hfeedLeft, hfeedText⟩, hfeedRight⟩ := hfeed
  let m : Malformed := ⟨Text.trim line, fault, h, Text.isTrimmed_trim line, hfeedText⟩
  exact ⟨⟨⟨left, hleft, hfeedLeft⟩, .malformed m, ⟨right, hright, hfeedRight⟩⟩, hline.symm, rfl⟩

namespace File

/-- No blanks. -/
def noBlanks : Blanks := ⟨[], by simp, by simp⟩

/-- The name of a store as it is. -/
def plainHeader (store : Store) : Header where
  store := store
  spelling := (storeName store).toList
  toLower_spelling := by cases store <;> decide
  before := noBlanks
  after := noBlanks

/-- A file that gives parameters, each after the name of its store. -/
def ofParameters (parameters : List (Store × Parameter)) : File where
  rows := parameters.flatMap fun (store, d) =>
    [(⟨noBlanks, .header (plainHeader store), noBlanks⟩, .feed),
      (⟨noBlanks, .parameter d noBlanks noBlanks, noBlanks⟩, .feed)]
  last := ⟨noBlanks, .blank, noBlanks⟩

/-- All parameters can be written. -/
theorem parameters_ofParameters (parameters : List (Store × Parameter)) :
    (ofParameters parameters).parameters = parameters := by
  have run (store : Store) : parametersFrom store (ofParameters parameters).contents =
      parameters := by
    induction parameters generalizing store with
    | nil => rfl
    | cons x parameters ih =>
      obtain ⟨other, d⟩ := x
      exact congrArg ((other, d) :: ·) (ih other)
  exact run .request

end File

end Settings

end PageScript
