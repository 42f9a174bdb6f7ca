import PageScript.Host
/-!
# Hosts that keep the output

The simplest host keeps the output as a text, along with the media type and the pages that
were asked for.  It refuses nothing.
-/

namespace PageScript

/-- A host that keeps the output as a text. -/
structure Buffer where
  /-- The output so far. -/
  output : String
  /-- The parameters of the request. -/
  request : Params
  /-- The parameters that persist for a client. -/
  persistent : Params
  /-- The parameters that last as long as the request. -/
  temporary : Params
  /-- The media type, once it has been set. -/
  mime : Option String
  /-- The pages that the request was handed on to, in order. -/
  dispatched : List String

namespace Buffer

/-- A buffer without output. -/
def ofParams (request persistent temporary : Params) : Buffer :=
  ⟨"", request, persistent, temporary, none, []⟩

instance : Host Buffer where
  write text := fun b => .ok () { b with output := b.output ++ text }
  params
    | .request, b => b.request
    | .persistent, b => b.persistent
    | .temporary, b => b.temporary
  setParams
    | .persistent, params, b => { b with persistent := params }
    | .temporary, params, b => { b with temporary := params }
  setMime mime := fun b => .ok () { b with mime := some mime }
  dispatch path := fun b => .ok () { b with dispatched := b.dispatched ++ [path] }

end Buffer

end PageScript
