import Dce.Protocol.Hyper
import Dce.Router.Landing

/-!
# The context of a request

A controller asks its context for the suffix of the request. A walk has found it
out already. After a direct match it is searched for in the path that the
protocol shows, which is not always the path of the request any more.
-/

namespace Dce.Routing

variable {Rp : Type}

/-- `Context`, as far as the suffix depends on it. The protocol is taken out after the handling. -/
structure Context (Rp : Type) where
  router : Router Rp
  api : Option (Api Rp)
  rp : Option Rp
  suffix : Option Str

namespace Context

/-- The context that a controller is called with. -/
def routed (router : Router Rp) (rp : Rp) (found : Router.Location Rp) : Context Rp where
  router
  api := some found.api
  rp := some rp
  suffix := found.suffix

def shownPath (pathOf : Rp → Str) (self : Context Rp) : Outcome DceErr Str :=
  match self.rp with
  | some rp => .ok (pathOf rp)
  | none => .panic

end Context

namespace Router

variable (router : Router Rp)

/-- A path ends in a suffix behind the boundary. -/
def shows (shown : Str) (suffix : Suffix) : Bool :=
  (router.suffixBoundary :: suffix.text).isSuffixOf shown

end Router

namespace Context

/-- The first suffix of the api that the protocol shows. -/
def shownSuffix (pathOf : Rp → Str) (self : Context Rp) : Outcome DceErr (Option Suffix) :=
  match self.api with
  | none => .ok none
  | some api => do
      let shown ← self.shownPath pathOf
      return api.suffixes.toList.find? (self.router.shows shown)

/-- `suffix`, which remembers its answer. -/
def askSuffix (pathOf : Rp → Str) (self : Context Rp) : Outcome DceErr (Str × Context Rp) :=
  match self.suffix with
  | some suffix => .ok (suffix, self)
  | none => do
      let shown ← self.shownSuffix pathOf
      let suffix := shown.elim [] Suffix.text
      return (suffix, { self with suffix := some suffix })

/-- What a controller does with its context: it changes the protocol, as by reading the body, or
asks for the suffix. -/
inductive Action (Rp : Type) where
  | change (step : Rp → Rp)
  | ask

/-- The suffixes that a controller is told. -/
def told (pathOf : Rp → Str) : List (Action Rp) → Context Rp → List (Outcome DceErr Str)
  | [], _ => []
  | .change step :: actions, self => told pathOf actions { self with rp := self.rp.map step }
  | .ask :: actions, self =>
      match self.askSuffix pathOf with
      | .ok (suffix, self) => .ok suffix :: told pathOf actions self
      | .err error => [.err error]
      | .panic => [.panic]

end Context

namespace Router

variable (router : Router Rp) {registered : List (Api Rp)}
  {apiFinder : List (Api Rp) → Outcome DceErr (Api Rp)}

variable {router}

end Router

namespace Context

variable {router : Router Rp} {api : Api Rp}

end Context

end Dce.Routing
