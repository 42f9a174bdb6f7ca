import PageScript.Params
import PageScript.RunError
/-!
# Hosts

A host is all that a running script sees and changes of its surroundings: the output, the three
stores of parameters, the media type of the response, and handing a request on to another page.
An action that fails may have changed the host all the same.
-/

namespace PageScript

/-- The surroundings of a running script, held in a state `σ`. -/
class Host (σ : Type) where
  /-- Appends a text to the output, or gives the reason why it is refused. -/
  write : String → EStateM String σ Unit
  /-- The parameters of a store. -/
  params : Store → σ → Params
  /-- Puts other parameters into a store. -/
  setParams : Memory → Params → σ → σ
  /-- Sets the media type of the response. -/
  setMime : String → EStateM HostError σ Unit
  /-- Hands the request on to another page. -/
  dispatch : String → EStateM HostError σ Unit

namespace Host

variable {σ : Type} [Host σ]

/-- The parameter of a name. -/
def get? (store : Store) (name : String) (s : σ) : Option String := (params store s)[name]?

/-- Sets the parameter of a name. -/
def put (memory : Memory) (name value : String) (s : σ) : σ :=
  setParams memory ((params memory.store s).insert name value) s

/-- Removes the parameter of a name. -/
def erase (memory : Memory) (name : String) (s : σ) : σ :=
  setParams memory ((params memory.store s).erase name) s

end Host

end PageScript
