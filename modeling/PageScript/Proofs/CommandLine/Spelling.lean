import PageScript.CommandLine
import PageScript.Proofs.Settings.Assignment
import Mathlib
/-!
# Spellings of a command line

The same options can be written in many ways.  Flags stand together in one argument or each in one
of its own.  The letter of an option with an operand ends such an argument, and its operand follows
there or is the next argument, whatever that looks like.  The page stands anywhere between these, or
at the end after `--`.

However they are written, they are read alike.  What is read is told by the options and the page
alone, and only by the order among the options of one letter.
-/

namespace PageScript.CommandLine

/-! ## Options -/

/-- The options without an operand. -/
inductive Flag where
  | bodyOnly
  | tree
  | debug
deriving DecidableEq

/-- The letter of a flag. -/
def Flag.letter : Flag → Char
  | bodyOnly => 'b'
  | tree => 't'
  | debug => 'd'

/-- An operand that is an assignment. -/
structure Definition where
  text : String
  assignment : Assignment
  isGivenBy : assignment.IsGivenBy text.toList

/-- An option, with its operand if it takes one. -/
inductive Choice where
  | flag (flag : Flag)
  | param (d : Definition)
  | persistent (d : Definition)
  | file (path : String)

namespace Choice

/-- The letter of an option. -/
def letter : Choice → Char
  | flag f => f.letter
  | param _ => OperandOption.param.letter
  | persistent _ => OperandOption.persistent.letter
  | file _ => OperandOption.file.letter

lemma letter_ne (choice : Choice) : choice.letter ≠ '-' := by
  cases choice with
  | flag f => cases f <;> simp [letter, Flag.letter]
  | param | persistent | file => simp [letter, OperandOption.letter]

/-- The operand as it is written. -/
def operand? : Choice → Option String
  | flag _ => none
  | param d | persistent d => some d.text
  | file path => some path

/-- Whether it is this flag. -/
def isFlag (f : Flag) : Choice → Bool
  | flag g => g = f
  | param _ | persistent _ | file _ => false

/-- The parameter of the request that it gives. -/
def param? : Choice → Option Assignment
  | param d => some d.assignment
  | flag _ | persistent _ | file _ => none

/-- The parameter that persists that it gives. -/
def persistent? : Choice → Option Assignment
  | persistent d => some d.assignment
  | flag _ | param _ | file _ => none

/-- The settings file that it gives. -/
def file? : Choice → Option String
  | file path => some path
  | flag _ | param _ | persistent _ => none

end Choice

/-! ## How they are written -/

/-- `Spelling choices args` holds if the arguments `args` are a way to write the options
`choices`. -/
inductive Spelling : List Choice → List String → Prop
  /-- No option takes no argument. -/
  | nil : Spelling [] []
  /-- Flags in one argument. -/
  | flags {flags : List Flag} {choices : List Choice} {args : List String} (hne : flags ≠ [])
      (rest : Spelling choices args) :
      Spelling (flags.map .flag ++ choices) (String.ofList ('-' :: flags.map Flag.letter) :: args)
  /-- An option with its operand, and perhaps flags before it, in one argument. -/
  | attached {flags : List Flag} {choice : Choice} {operand : String} {choices : List Choice}
      {args : List String} (hoperand : choice.operand? = some operand) (hne : operand ≠ "")
      (rest : Spelling choices args) :
      Spelling (flags.map .flag ++ choice :: choices)
        (String.ofList ('-' :: (flags.map Flag.letter ++ choice.letter :: operand.toList)) :: args)
  /-- An option whose operand is the next argument, and perhaps flags before it. -/
  | separate {flags : List Flag} {choice : Choice} {operand : String} {choices : List Choice}
      {args : List String} (hoperand : choice.operand? = some operand)
      (rest : Spelling choices args) :
      Spelling (flags.map .flag ++ choice :: choices)
        (String.ofList ('-' :: (flags.map Flag.letter ++ [choice.letter])) :: operand :: args)

/-- `Spells choices script args` holds if the arguments `args` are a way to write the options
`choices` and the page `script`. -/
inductive Spells : List Choice → String → List String → Prop
  /-- A page that does not look like options stands anywhere between them. -/
  | between {before after : List Choice} {front back : List String} {script : String}
      (hscript : script = "-" ∨ script.toList.head? ≠ some '-') (hfront : Spelling before front)
      (hback : Spelling after back) : Spells (before ++ after) script (front ++ script :: back)
  /-- Any page stands at the end after two hyphens. -/
  | last {choices : List Choice} {front : List String} (script : String)
      (hfront : Spelling choices front) : Spells choices script (front ++ ["--", script])

/-! ## What they say -/

/-- `line.Says choices script` holds if a command line says what the options `choices` and the page
`script` ask for. -/
structure Says (line : CommandLine) (choices : List Choice) (script : String) : Prop where
  bodyOnly : line.bodyOnly = true ↔ .flag .bodyOnly ∈ choices
  tree : line.tree = true ↔ .flag .tree ∈ choices
  debug : line.debug = true ↔ .flag .debug ∈ choices
  params : line.params = choices.filterMap Choice.param?
  persistent : line.persistent = choices.filterMap Choice.persistent?
  files : line.files = choices.filterMap Choice.file?
  standardInput : line.script = .standardInput ↔ script = "-"
  file : script ≠ "-" → line.script = .file script

/-- The command line with one option more. -/
def add (line : CommandLine) : Choice → CommandLine
  | .flag .bodyOnly => { line with bodyOnly := true }
  | .flag .tree => { line with tree := true }
  | .flag .debug => { line with debug := true }
  | .param d => { line with params := line.params ++ [d.assignment] }
  | .persistent d => { line with persistent := line.persistent ++ [d.assignment] }
  | .file path => { line with files := line.files ++ [path] }

lemma foldl_add (line : CommandLine) (choices : List Choice) :
    choices.foldl add line =
      { bodyOnly := line.bodyOnly || choices.any (Choice.isFlag .bodyOnly)
        tree := line.tree || choices.any (Choice.isFlag .tree)
        debug := line.debug || choices.any (Choice.isFlag .debug)
        params := line.params ++ choices.filterMap Choice.param?
        persistent := line.persistent ++ choices.filterMap Choice.persistent?
        files := line.files ++ choices.filterMap Choice.file?
        script := line.script } := by
  induction choices generalizing line with
  | nil => simp
  | cons choice choices ih =>
    rw [List.foldl_cons, ih]
    cases choice with
    | flag f =>
      cases f <;>
        simp [add, List.filterMap_cons, Choice.isFlag, Choice.param?, Choice.persistent?,
          Choice.file?]
    | param | persistent | file =>
      simp [add, List.filterMap_cons, Choice.isFlag, Choice.param?, Choice.persistent?,
        Choice.file?]

lemma any_isFlag_iff {f : Flag} {choices : List Choice} :
    choices.any (Choice.isFlag f) = true ↔ .flag f ∈ choices := by
  have hflag (choice : Choice) : choice.isFlag f = true ↔ choice = .flag f := by
    cases choice <;> simp [Choice.isFlag]
  simp [hflag]

section Order

variable {choices choices' : List Choice}
  (h : ∀ letter, choices'.filter (·.letter = letter) = choices.filter (·.letter = letter))

include h

lemma mem_iff_of_filter_eq {choice : Choice} : choice ∈ choices' ↔ choice ∈ choices := by
  have hmem (cs : List Choice) : choice ∈ cs ↔ choice ∈ cs.filter (·.letter = choice.letter) := by
    simp
  rw [hmem choices', h, ← hmem]

/-- What is made of the options of one letter depends on their order alone. -/
lemma filterMap_eq_of_filter_eq {α : Type} {f : Choice → Option α} (letter : Char)
    (hf : ∀ choice, (f choice).isSome → choice.letter = letter) :
    choices'.filterMap f = choices.filterMap f := by
  have hfilter (cs : List Choice) :
      (cs.filter (·.letter = letter)).filterMap f = cs.filterMap f := by
    rw [List.filterMap_filter]
    refine List.filterMap_congr fun choice _ => ?_
    cases hchoice : f choice with
    | none => simp
    | some a => simp [hf choice (by simp [hchoice])]
  rw [← hfilter choices', h, hfilter]

end Order

/-- Neighbours of different letters may change places. -/
lemma filter_exchange {a b : Choice} (hne : a.letter ≠ b.letter) (front rest : List Choice)
    (letter : Char) :
    (front ++ b :: a :: rest).filter (·.letter = letter) =
      (front ++ a :: b :: rest).filter (·.letter = letter) := by
  simp only [List.filter_append, List.filter_cons, decide_eq_true_eq]
  split
  · next hb =>
    have ha : a.letter ≠ letter := fun ha => hne (ha.trans hb.symm)
    simp only [if_neg ha]
  · rfl

namespace Says

variable {line line' : CommandLine} {choices choices' : List Choice} {script : String}

/-- Options and a page ask for one command line. -/
lemma unique (h : line.Says choices script) (h' : line'.Says choices script) : line = line' := by
  obtain ⟨bodyOnly, tree, debug, params, persistent, files, page⟩ := line
  obtain ⟨bodyOnly', tree', debug', params', persistent', files', page'⟩ := line'
  have hscript : page = page' := by
    by_cases hpage : script = "-"
    · exact (h.standardInput.2 hpage).trans (h'.standardInput.2 hpage).symm
    · exact (h.file hpage).trans (h'.file hpage).symm
  simp only [CommandLine.mk.injEq]
  exact ⟨Bool.eq_iff_iff.2 (h.bodyOnly.trans h'.bodyOnly.symm),
    Bool.eq_iff_iff.2 (h.tree.trans h'.tree.symm), Bool.eq_iff_iff.2 (h.debug.trans h'.debug.symm),
    h.params.trans h'.params.symm, h.persistent.trans h'.persistent.symm,
    h.files.trans h'.files.symm, hscript⟩

/-- Only the order among the options of one letter counts. -/
lemma of_filter_eq
    (h : ∀ letter, choices'.filter (·.letter = letter) = choices.filter (·.letter = letter))
    (hline : line.Says choices script) : line.Says choices' script where
  bodyOnly := hline.bodyOnly.trans (mem_iff_of_filter_eq h).symm
  tree := hline.tree.trans (mem_iff_of_filter_eq h).symm
  debug := hline.debug.trans (mem_iff_of_filter_eq h).symm
  params := by
    rw [hline.params]
    refine (filterMap_eq_of_filter_eq h OperandOption.param.letter fun choice => ?_).symm
    cases choice <;> simp [Choice.param?, Choice.letter]
  persistent := by
    rw [hline.persistent]
    refine (filterMap_eq_of_filter_eq h OperandOption.persistent.letter fun choice => ?_).symm
    cases choice <;> simp [Choice.persistent?, Choice.letter]
  files := by
    rw [hline.files]
    refine (filterMap_eq_of_filter_eq h OperandOption.file.letter fun choice => ?_).symm
    cases choice <;> simp [Choice.file?, Choice.letter]
  standardInput := hline.standardInput
  file := hline.file

end Says

/-! ## How they are read -/

namespace Progress

variable {p : Progress} {choice : Choice} {operand : String} {choices : List Choice}
  {args : List String}

/-- The progress with more options. -/
def addAll (p : Progress) (choices : List Choice) : Progress :=
  { p with line := choices.foldl add p.line }

lemma addAll_append (p : Progress) (front rest : List Choice) :
    p.addAll (front ++ rest) = (p.addAll front).addAll rest := by
  simp [addAll]

lemma addAssignment_text (d : Definition) (f : Assignment → CommandLine) :
    p.addAssignment d.text f = .ok { p with line := f d.assignment } := by
  rw [addAssignment, Assignment.read_eq_ok_iff.2 d.isGivenBy]

/-- An option with an operand is known by its letter, and its operand is read as what it is. -/
lemma exists_option_of_operand? (h : choice.operand? = some operand) :
    ∃ option : OperandOption, choice.letter = option.letter ∧
      ∀ line scripts expecting, addOperand option operand ⟨line, scripts, expecting⟩ =
        .ok ⟨line.add choice, scripts, .anything⟩ := by
  cases choice with
  | flag f => cases h
  | param d =>
    obtain rfl := Option.some.inj h
    exact ⟨.param, rfl, fun line scripts expecting => addAssignment_text d _⟩
  | persistent d =>
    obtain rfl := Option.some.inj h
    exact ⟨.persistent, rfl, fun line scripts expecting => addAssignment_text d _⟩
  | file path =>
    obtain rfl := Option.some.inj h
    exact ⟨.file, rfl, fun line scripts expecting => rfl⟩

lemma readLetters_flags (p : Progress) (flags : List Flag) (rest : List Char) :
    readLetters (flags.map Flag.letter ++ rest) p =
      readLetters rest (p.addAll (flags.map .flag)) := by
  induction flags generalizing p with
  | nil => rfl
  | cons f flags ih => cases f <;> exact ih _

/-- The letter of an option with an operand ends the letters. -/
lemma readLetters_option (option : OperandOption) (rest : List Char) (p : Progress) :
    readLetters (option.letter :: rest) p = p.readAttached option rest := by
  cases option <;> rfl

/-- An operand may follow the letter of its option. -/
lemma readLetters_attached (hp : p.expecting = .anything)
    (hoperand : choice.operand? = some operand) (hne : operand ≠ "") :
    readLetters (choice.letter :: operand.toList) p = .ok (p.addAll [choice]) := by
  obtain ⟨option, hletter, hadd⟩ := exists_option_of_operand? hoperand
  obtain ⟨line, scripts, expecting⟩ := p
  obtain rfl : expecting = .anything := hp
  rw [hletter, readLetters_option, readAttached, if_neg (by simpa using hne), String.ofList_toList,
    hadd]
  rfl

/-- Otherwise it is the next argument. -/
lemma readLetters_separate (hp : p.expecting = .anything)
    (hoperand : choice.operand? = some operand) :
    ∃ q, readLetters [choice.letter] p = .ok q ∧
      q.readArgument operand = .ok (p.addAll [choice]) := by
  obtain ⟨option, hletter, hadd⟩ := exists_option_of_operand? hoperand
  obtain ⟨line, scripts, expecting⟩ := p
  obtain rfl : expecting = .anything := hp
  refine ⟨⟨line, scripts, .operand option⟩, ?_, hadd line scripts _⟩
  rw [hletter, readLetters_option]
  rfl

/-- What begins with one hyphen, and is not that alone, are options. -/
lemma readArgument_letters (hp : p.expecting = .anything) {c : Char} (hc : c ≠ '-')
    (rest : List Char) :
    p.readArgument (String.ofList ('-' :: c :: rest)) = readLetters (c :: rest) p := by
  have hne : String.ofList ('-' :: c :: rest) ≠ "--" := by
    intro h
    have hlist : '-' :: c :: rest = ['-', '-'] := by simpa using congrArg String.toList h
    exact hc (by simpa using hlist : c = '-' ∧ rest = []).1
  rw [readArgument, hp]
  dsimp only
  rw [if_neg hne, String.toList_ofList]
  rfl

/-- An argument with options begins with flags. -/
lemma readArgument_cluster (hp : p.expecting = .anything) (flags : List Flag) {tail : List Char}
    (hne : tail = [] → flags ≠ []) (htail : tail.head? ≠ some '-') :
    p.readArgument (String.ofList ('-' :: (flags.map Flag.letter ++ tail))) =
      readLetters tail (p.addAll (flags.map .flag)) := by
  rw [← readLetters_flags]
  cases flags with
  | nil =>
    cases tail with
    | nil => exact absurd rfl (hne rfl)
    | cons c tail => exact readArgument_letters hp (by simpa using htail) tail
  | cons f flags => exact readArgument_letters hp (by cases f <;> decide) _

/-- What does not look like options is a page. -/
lemma readArgument_script {script : String} (hp : p.expecting = .anything)
    (hscript : script = "-" ∨ script.toList.head? ≠ some '-') :
    p.readArgument script = .ok { p with scripts := p.scripts ++ [script] } := by
  rw [readArgument, hp]
  dsimp only
  rcases hscript with rfl | hscript
  · rw [if_neg (by decide)]
    rfl
  · have hne : script ≠ "--" := by
      rintro rfl
      exact hscript rfl
    rw [if_neg hne]
    split
    · next heq =>
      rw [heq] at hscript
      exact absurd rfl hscript
    · rfl

/-- Options are read as what they are, however they are written.  The induction is on the arguments,
and between them anything is expected. -/
lemma foldlM_of_spelling (h : Spelling choices args) (hp : p.expecting = .anything) :
    args.foldlM readArgument p = .ok (p.addAll choices) := by
  induction h generalizing p with
  | nil => rfl
  | @flags flags choices args hne rest ih =>
    have hfirst : p.readArgument (String.ofList ('-' :: flags.map Flag.letter)) =
        .ok (p.addAll (flags.map .flag)) := by
      have hcluster := @readArgument_cluster p hp flags [] (fun _ => hne) (by simp)
      rwa [List.append_nil] at hcluster
    rw [List.foldlM_cons, hfirst, addAll_append]
    exact ih hp
  | @attached flags choice operand choices args hoperand hne rest ih =>
    have hletter : (choice.letter :: operand.toList).head? ≠ some '-' := by
      simpa using choice.letter_ne
    have hp' : (p.addAll (flags.map .flag)).expecting = .anything := hp
    rw [List.foldlM_cons, readArgument_cluster hp flags (by simp) hletter,
      readLetters_attached hp' hoperand hne, List.append_cons, addAll_append, addAll_append]
    exact ih hp
  | @separate flags choice operand choices args hoperand rest ih =>
    have hletter : [choice.letter].head? ≠ some '-' := by simpa using choice.letter_ne
    have hp' : (p.addAll (flags.map .flag)).expecting = .anything := hp
    obtain ⟨q, hfirst, hsecond⟩ := readLetters_separate hp' hoperand
    rw [List.foldlM_cons, readArgument_cluster hp flags (by simp) hletter, hfirst,
      List.append_cons, addAll_append, addAll_append]
    change (q.readArgument operand >>= fun q => args.foldlM readArgument q) = _
    rw [hsecond]
    exact ih hp

end Progress

variable {choices : List Choice} {script : String} {args : List String}

/-- What options and a page ask for. -/
def ofChoices (choices : List Choice) (script : String) : CommandLine :=
  { choices.foldl add Progress.start.line with
    script := if script = "-" then .standardInput else .file script }

lemma says_ofChoices (choices : List Choice) (script : String) :
    (ofChoices choices script).Says choices script := by
  rw [ofChoices, foldl_add]
  refine ⟨?_, ?_, ?_, rfl, rfl, rfl, ?_, ?_⟩
  · simpa [Progress.start] using any_isFlag_iff
  · simpa [Progress.start] using any_isFlag_iff
  · simpa [Progress.start] using any_isFlag_iff
  · dsimp only
    split <;> simp_all
  · intro hscript
    exact if_neg hscript

lemma read_of_spells (h : Spells choices script args) :
    read args = .ok (ofChoices choices script) := by
  cases h with
  | @between before after front back _ hscript hfront hback =>
    have hpage := @Progress.readArgument_script (Progress.start.addAll before) script rfl hscript
    have hall : (front ++ script :: back).foldlM Progress.readArgument .start =
        .ok { Progress.start.addAll (before ++ after) with scripts := [script] } := by
      rw [List.foldlM_append, Progress.foldlM_of_spelling hfront rfl, Progress.addAll_append]
      change (Progress.readArgument _ script >>= fun p => back.foldlM Progress.readArgument p) = _
      rw [hpage]
      exact Progress.foldlM_of_spelling hback rfl
    rw [read, hall]
    rfl
  | @last _ front _ hfront =>
    have hall : (front ++ ["--", script]).foldlM Progress.readArgument .start =
        .ok { Progress.start.addAll choices with scripts := [script], expecting := .scripts } := by
      rw [List.foldlM_append, Progress.foldlM_of_spelling hfront rfl]
      rfl
    rw [read, hall]
    rfl

/-- However options and a page are written, they are read as the one command line that says what
they ask for; and so are options that are in another order, as long as those of one letter are in
the same. -/
theorem read_spelled (h : Spells choices script args) :
    ∃ line, read args = .ok line ∧ line.Says choices script ∧
      ∀ choices' args', Spells choices' script args' →
        (∀ letter, choices'.filter (·.letter = letter) = choices.filter (·.letter = letter)) →
        read args' = .ok line := by
  refine ⟨_, read_of_spells h, says_ofChoices choices script, ?_⟩
  intro choices' args' h' hfilter
  rw [read_of_spells h']
  exact congrArg _ ((says_ofChoices choices' script).unique
    ((says_ofChoices choices script).of_filter_eq hfilter))

/-- A parameter whose value is an equals sign. -/
def requestDefinition : Definition :=
  ⟨" a = \"=\" ", ⟨['a'], ['=']⟩, Assignment.read_eq_ok_iff.1 (by decide)⟩

/-- A parameter whose text looks like options. -/
def persistentDefinition : Definition :=
  ⟨"-b=-", ⟨['-', 'b'], ['-']⟩, Assignment.read_eq_ok_iff.1 (by decide)⟩

/-- Options, one of them with two hyphens as its operand. -/
def mixedChoices : List Choice :=
  [.flag .bodyOnly, .param requestDefinition, .file "--", .persistent persistentDefinition,
    .flag .bodyOnly]

/-- The options with two neighbours exchanged. -/
def exchangedChoices : List Choice :=
  [.flag .bodyOnly, .file "--", .param requestDefinition, .persistent persistentDefinition,
    .flag .bodyOnly]

theorem read_mixedArguments :
    Spells mixedChoices "-" ["-bp a = \"=\" ", "-f", "--", "-", "-P", "-b=-", "-b"] ∧
      Spells exchangedChoices "-" ["-b", "-f--", "-p", " a = \"=\" ", "-P-b=-", "-b", "--", "-"] ∧
      ∃ line, read ["-bp a = \"=\" ", "-f", "--", "-", "-P", "-b=-", "-b"] = .ok line ∧
        line.Says mixedChoices "-" ∧
        read ["-b", "-f--", "-p", " a = \"=\" ", "-P-b=-", "-b", "--", "-"] = .ok line := by
  have hlast : Spelling [.flag .bodyOnly] ["-b"] := @Spelling.flags [.bodyOnly] _ _ (by simp) .nil
  have hmixed : Spells mixedChoices "-" ["-bp a = \"=\" ", "-f", "--", "-", "-P", "-b=-", "-b"] :=
    .between (.inl rfl)
      (@Spelling.attached [.bodyOnly] (.param requestDefinition) _ _ _ rfl (by decide)
        (@Spelling.separate [] (.file "--") _ _ _ rfl .nil))
      (@Spelling.separate [] (.persistent persistentDefinition) _ _ _ rfl hlast)
  have hexchanged : Spells exchangedChoices "-"
      ["-b", "-f--", "-p", " a = \"=\" ", "-P-b=-", "-b", "--", "-"] :=
    .last "-" (@Spelling.flags [.bodyOnly] _ _ (by simp)
      (@Spelling.attached [] (.file "--") _ _ _ rfl (by decide)
        (@Spelling.separate [] (.param requestDefinition) _ _ _ rfl
          (@Spelling.attached [] (.persistent persistentDefinition) _ _ _ rfl (by decide) hlast))))
  obtain ⟨line, hread, hline, hother⟩ := read_spelled hmixed
  refine ⟨hmixed, hexchanged, line, hread, hline, hother _ _ hexchanged ?_⟩
  exact filter_exchange (by decide) [.flag .bodyOnly]
    [.persistent persistentDefinition, .flag .bodyOnly]

end PageScript.CommandLine
