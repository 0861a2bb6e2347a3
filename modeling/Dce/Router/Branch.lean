import Dce.Router.Api
import Dce.Util.AtomTree

/-!
# Branches of the api tree

A branch stands for a path, with the apis of that path. What the second pass
over the tree finds out about the branches below is kept beside it.
-/

namespace Dce.Routing

open Text

def variableOpener : Char := '{'
def variableClosing : Char := '}'
def varTypeOptional : Char := '?'
def varTypeEmptableVector : Char := '*'
def varTypeVector : Char := '+'

inductive VarType where
  | required (var : Str)
  | optional (var : Str)
  | emptableVector (var : Str)
  | vector (var : Str)
  | notVar
  deriving DecidableEq, Repr

/-- The variable that a key declares. -/
def VarType.ofKey (key : Str) : VarType :=
  if key.head? = some variableOpener ∧ key.getLast? = some variableClosing then
    let var := trim (key.drop 1).dropLast
    let name := trimEndBy isWhitespace var.dropLast
    if var.getLast? = some varTypeOptional then .optional name
    else if var.getLast? = some varTypeEmptableVector then .emptableVector name
    else if var.getLast? = some varTypeVector then .vector name
    else .required var
  else .notVar

variable {Rp : Type}

/-- `varChildren` and `omittedPassedChildren` refer to places in the tree. -/
structure ApiBranch (Rp : Type) where
  path : Str
  varType : VarType
  isMidVar : Bool
  isOmission : Bool
  apis : List (Api Rp)
  varChildren : List Nat
  omittedPassedChildren : Std.ExtTreeMap Str Nat

namespace ApiBranch

def key (branch : ApiBranch Rp) : Str := trim (lastPart pathPartSeparator branch.path)

def childOf (branch parent : ApiBranch Rp) : Bool :=
  match rsplitOnce pathPartSeparator branch.path with
  | some (before, _) => before == parent.path
  | none => parent.path.isEmpty

instance keyFactory : KeyFactory (ApiBranch Rp) Str where
  key := key
  childOf := childOf

/-- The branch of a path, whatever its apis are. -/
def ofPath (path : Str) (apis : List (Api Rp)) : ApiBranch Rp where
  path
  varType := VarType.ofKey (trim (lastPart pathPartSeparator path))
  isMidVar := false
  isOmission := apis.any (·.omission)
  apis
  varChildren := []
  omittedPassedChildren := ∅

/-- A variable cannot be left out of requests. -/
def new (path : Str) (apis : List (Api Rp)) : Outcome DceErr (ApiBranch Rp) :=
  let branch := ofPath path apis
  if branch.varType ≠ .notVar ∧ branch.isOmission then .panic else .ok branch

end ApiBranch

end Dce.Routing
