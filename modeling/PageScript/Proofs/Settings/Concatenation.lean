import PageScript.Program
import PageScript.Proofs.Settings.Reading
/-!
# Settings files one behind the other

Several settings files can be put into one, with a line `[request]` between each and the next.  The
line feed before that line ends the last line of a file, and the line itself puts the reader back to
the store it begins with, so that it goes on as it would begin: only the lines are counted
further.  The parameters are then those of the files merged, and this is also what the program
makes of the files it is given.
-/

namespace PageScript

namespace Settings

/-- What stands between one settings file and the next. -/
def seam : List Char := "\n[request]\n".toList

/-- Settings files in one. -/
def join (texts : List (List Char)) : List Char := seam.intercalate texts

/-! ## Two files -/

namespace Progress

/-- Behind the seam all is read as from the beginning, but for what has been read before. -/
lemma readText_seam (p : Progress) (a b : List Char) :
    p.readText (a ++ seam ++ b) =
      { p.readText a with count := p.count + (2 + a.count '\n') }.after (start.readText b) := by
  have hheader (p : Progress) : p.readText ("[request]".toList ++ ['\n']) =
      { p with store := some .request, count := p.count + 1 } := by
    have hrequest : storeOf? "request".toList = some .request := by decide
    have hline : "[request]".toList = '[' :: ("request".toList ++ [']']) := by decide
    rw [readText_line (by decide), hline, readLine_header hrequest]
  have hcut : a ++ seam ++ b = a ++ '\n' :: ("[request]".toList ++ '\n' :: b) := by
    have hseam : seam = '\n' :: ("[request]".toList ++ ['\n']) := by decide
    rw [hseam, List.append_assoc, List.cons_append, List.append_assoc, List.singleton_append]
  have hcount : p.count + (a.count '\n' + 1) + 1 = p.count + (2 + a.count '\n') := by omega
  rw [hcut, readText_append p a, readText_append _ "[request]".toList, readText_end p a,
    hheader, ← after_readText, after_start]
  dsimp only
  rw [hcount]

end Progress

/-- The second file wins, and its lines come after those of the first and the two ends at the
seam. -/
lemma read_seam (a b : List Char) :
    read (a ++ seam ++ b) = ((read a).1.merge (read b).1,
      (read a).2 ++ (read b).2.map (LineError.later (2 + a.count '\n'))) := by
  rw [read_eq, read_eq a, read_eq b, Progress.readText_seam]
  simp only [Progress.after, Progress.start, Nat.zero_add]

/-! ## Any number of files -/

/-- Nothing to read gives no parameters. -/
lemma read_join_nil : (read (join [])).1 = .empty := rfl

lemma merge_read_join_cons (s : Settings) (text : List Char) (texts : List (List Char)) :
    s.merge (read (join (text :: texts))).1 =
      (s.merge (read text).1).merge (read (join texts)).1 := by
  cases texts with
  | nil => rw [read_join_nil, merge_empty, join, List.intercalate_singleton]
  | cons next texts =>
    have hjoin : join (text :: next :: texts) = text ++ seam ++ join (next :: texts) := by
      simp [join, List.intercalate_cons_cons]
    rw [hjoin, read_seam, merge_assoc]

end Settings

namespace Program

variable {m : Type → Type} [Monad m]

/-- Reads files one after the other, up to one that cannot be read. -/
def readTexts (readFile : String → m (Except ReadError String)) :
    List String → m (Except String (List (List Char)))
  | [] => pure (.ok [])
  | path :: rest => do
    match ← readFile path with
    | .error e => pure (.error ("cannot read " ++ path ++ ": " ++ e.message))
    | .ok text => return (← readTexts readFile rest).map (text.toList :: ·)

/-- Settings files have the effect of one. -/
lemma readSettings_eq_join [LawfulMonad m] (readFile : String → m (Except ReadError String))
    (paths : List String) (s : Settings) :
    readSettings readFile paths s = do
      return (← readTexts readFile paths).map fun texts =>
        s.merge (Settings.read (Settings.join texts)).1 := by
  induction paths generalizing s with
  | nil => simp [readSettings, readTexts, Except.map, Settings.read_join_nil]
  | cons path rest ih =>
    rw [readSettings, readTexts, bind_assoc]
    refine bind_congr fun result => ?_
    cases result with
    | error e => simp [Except.map]
    | ok text =>
      simp only [ih, bind_assoc, pure_bind]
      refine bind_congr fun texts => ?_
      cases texts with
      | error e => rfl
      | ok texts => simp only [Except.map, Settings.merge_read_join_cons]

end Program

/-- One file behind another, with a line `[request]` between them, gives the parameters of both, of
which those of the second win, and the malformed lines of both, of which those of the second come
two lines and all lines of the first later.  So files that the program reads one after the
other have the effect of all of them in one. -/
theorem Settings.concatenation_eq_merge :
    (∀ a b : List Char, read (a ++ "\n[request]\n".toList ++ b) =
      ((read a).1.merge (read b).1,
        (read a).2 ++ (read b).2.map (LineError.later (2 + a.count '\n')))) ∧
    ∀ {m : Type → Type} [Monad m] [LawfulMonad m] (readFile : String → m (Except ReadError String))
      (paths : List String) (s : Settings),
      Program.readSettings readFile paths s = do
        return (← Program.readTexts readFile paths).map fun texts =>
          s.merge (read (List.intercalate "\n[request]\n".toList texts)).1 :=
  ⟨read_seam, Program.readSettings_eq_join⟩

end PageScript
