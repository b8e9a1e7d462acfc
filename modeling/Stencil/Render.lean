import Stencil.Engine
import Stencil.Node.Assembly
import Stencil.Page
set_option autoImplicit false

/-!
# Rendering

A template is parsed, and then run against a host.
-/

namespace Stencil

/-- Why a template was not rendered to its end. -/
inductive RenderError where
  /-- the template has no tree -/
  | refused (e : ParseError)
  /-- the run ended early -/
  | stopped (s : Stop)
  deriving DecidableEq

/-- A template rendered against a host: the result, and the host after it. -/
def render {σ : Type} [Host σ] (b : Bounds) (template : String) (host : σ) :
    Except RenderError Unit × σ :=
  match Node.parse template with
  | .error e => (.error (.refused e), host)
  | .ok n =>
    let (r, host) := Engine.execute b n host
    (r.mapError .stopped, host)

/-- The output of a template on an empty page. -/
def renderToString (b : Bounds) (template : String) : Except RenderError String :=
  match render b template ({} : Page) with
  | (.ok (), page) => .ok page.output
  | (.error e, _) => .error e

end Stencil
