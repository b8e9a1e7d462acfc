import Stencil.Sink
import Stencil.Table
set_option autoImplicit false

/-!
# Pages

A page is a host in memory: a sink for the output, a table for each scope of
parameters, and the mime type once it was set.
-/

namespace Stencil

/-- A page under construction. -/
structure Page where
  sink : Sink := {}
  request : Table := {}
  persistent : Table := {}
  transient : Table := {}
  mime : Option String := none

namespace Page

/-- The mime type of a page that was given no other. -/
def defaultMimeType : String := "text/html"

/-- The mime type. -/
def mimeType (p : Page) : String := p.mime.getD defaultMimeType

/-- The text written so far. -/
def output (p : Page) : String := p.sink.text

/-- The table of a changeable scope. -/
def store (p : Page) : Store → Table
  | .persistent => p.persistent
  | .transient => p.transient

/-- The table of a scope. -/
def scope (p : Page) : Scope → Table
  | .request => p.request
  | .store s => p.store s

/-- The page with another table for a changeable scope. -/
def withStore (p : Page) : Store → Table → Page
  | .persistent, t => { p with persistent := t }
  | .transient, t => { p with transient := t }

instance : Host Page where
  answer
    | .write text, p =>
      let (r, sink) := p.sink.write text
      (r, { p with sink })
    | .lookup scope name, p => ((p.scope scope).get? name, p)
    | .set store name value, p => ((), p.withStore store ((p.store store).insert name value))
    | .delete store name, p => ((), p.withStore store ((p.store store).erase name))
    | .setMime type, p => ((), { p with mime := some type })

end Page

end Stencil
