import PageScript.Page
import PageScript.Host.Buffer
import PageScript.Proofs.Document.Concatenation
import PageScript.Proofs.Run.LexicalScoping
/-!
# Rendering pages one behind the other

A page that is put behind another is rendered after it, on the host that the first leaves.  Where
the last run of text of the first and the first one of the second become one, the host is given both
texts at once; so this holds of hosts that do not tell how a text comes to them in parts.
-/

namespace PageScript

variable {σ : Type} [Host σ]

/-- A host for which two texts in a row are one. -/
def Host.WritesParts (σ : Type) [Host σ] : Prop :=
  ∀ s t : String, (Host.write (s ++ t) : EStateM String σ Unit) = (do Host.write s; Host.write t)

/-- A buffer keeps its output as one text. -/
lemma Buffer.writesParts : Host.WritesParts Buffer := by
  intro s t
  funext b
  simp only [Host.write, Bind.bind, EStateM.bind, String.append_assoc]

namespace Document

lemma write_append (h : Host.WritesParts σ) (s t : String) :
    (Scope.write (s ++ t) : EStateM Stop σ Unit) = (do Scope.write s; Scope.write t) := by
  funext host
  simp only [Scope.write, h s t, Bind.bind, EStateM.bind]
  cases Host.write s host with
  | ok _ host' => rfl
  | error reason host' => rfl

/-- A run through two documents in a row goes through one after the other. -/
lemma runIn_join (h : Host.WritesParts σ) (limit : Nat) (scope : Scope) (d e : Document) :
    (runIn limit scope (join d e) : EStateM Stop σ Unit) = (do
      runIn limit scope d
      runIn limit scope e) := by
  unfold join
  split
  · next hlast =>
    obtain ⟨d, rfl⟩ := List.getLast?_eq_some_iff.1 hlast
    rw [List.dropLast_concat, runIn_append, runIn_append]
    simp [runIn, Node.runIn, write_append h]
  · exact runIn_append limit scope _ _

/-- A document leaves no variable bound, so another can run after it as it runs alone. -/
theorem execute_join (h : Host.WritesParts σ) (limit : Nat) (d e : Document) :
    ((join d e).execute limit : EStateM Stop σ Unit) = (do d.execute limit; e.execute limit) := by
  simp only [execute_eq_runIn]
  exact runIn_join h limit _ d e

end Document

/-- A page that is read is rendered as its document runs. -/
lemma render_eq {page : List Char} {d : Document} (h : Document.read page = .ok d) (limit : Nat)
    (host : σ) : render limit page host =
      match d.execute limit host with
      | .ok _ host => .ok () host
      | .error stop host => .error (.ofStop stop) host := by
  cases hrun : d.execute limit host with
  | ok _ host' => simp only [render, h, hrun]
  | error stop host' => simp only [render, h, hrun]

/-- Two pages that are documents, with no tag opened where they meet, are one document, and it is
rendered into a buffer as the first and then, if that succeeds, the second. -/
theorem render_append {first second : List Char} {d e : Document}
    (h : Document.read first = .ok d) (h' : Document.read second = .ok e)
    (hseam : ¬ (first.getLast? = some '\x7b' ∧ second.head? = some '$')) :
    Document.read (first ++ second) = .ok (d.join e) ∧
      ∀ (limit : Nat) (b : Buffer), render limit (first ++ second) b =
        (do render limit first; render limit second : EStateM PageError Buffer Unit) b := by
  have hread := Document.read_append h h' hseam
  refine ⟨hread, fun limit b => ?_⟩
  rw [render_eq hread, Document.execute_join Buffer.writesParts]
  simp only [Bind.bind, EStateM.bind]
  rw [render_eq h]
  cases d.execute limit b with
  | ok _ b' =>
    dsimp only
    rw [render_eq h']
  | error stop b' => rfl

/-- A page that ends in a brace. -/
def bracePage : List Char := "\x7b$= 1 $\x7da\x7b".toList

/-- A page that begins with an escaped tag opening. -/
def escapePage : List Char := "\\\x7b$b".toList

/-- A brace at the end is no obstacle to a page that begins with an escape. -/
theorem render_append_bracePage :
    Document.read bracePage = .ok [.echo [.number (.int 1)], .text "a\x7b"] ∧
      Document.read escapePage = .ok [.text "\x7b$b"] ∧
      ¬ (bracePage.getLast? = some '\x7b' ∧ escapePage.head? = some '$') ∧
      Document.read (bracePage ++ escapePage) =
          .ok [.echo [.number (.int 1)], .text "a\x7b\x7b$b"] ∧
        ∀ (limit : Nat) (b : Buffer), render limit (bracePage ++ escapePage) b =
          (do
            render limit bracePage
            render limit escapePage : EStateM PageError Buffer Unit) b := by
  have hfirst : Document.read bracePage = .ok [.echo [.number (.int 1)], .text "a\x7b"] := by
    refine Document.readFrom_source ?_ (by decide) (Document.standsAt_ofSource _)
    exact .echo (by simp [Element.IsWellFormed]) (.text (by decide) (by simp) .nil)
  have hsecond : Document.read escapePage = .ok [.text "\x7b$b"] := by
    refine Document.readFrom_source ?_ (by decide) (Document.standsAt_ofSource _)
    exact .text (by decide) (by simp) .nil
  have hseam : ¬ (bracePage.getLast? = some '\x7b' ∧ escapePage.head? = some '$') := by decide
  exact ⟨hfirst, hsecond, hseam, render_append hfirst hsecond hseam⟩

end PageScript
