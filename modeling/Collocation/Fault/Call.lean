import Collocation.Fault.Report

/-!
Failures of calls: arguments that are missing, superfluous or unknown by name.
-/

namespace Collocation

/-- Why a call is refused before anything is done. -/
inductive CallFault where
  | missing (function : String) (arguments : List String)
  /-- Arguments that have to be given by name, and are not. -/
  | missingNamed (function : String) (arguments : List String)
  /-- More arguments than there are places for, of which some may stay empty. -/
  | tooMany (function : String) (least most given : Nat)
  /-- A field that is read before a call, and is not there. -/
  | absent (field : String)
  /-- An argument under a name that the function does not know. -/
  | unknownName (function name : String)
  deriving DecidableEq

namespace CallFault

/-- Names in quotes, the last one after "and". -/
def enumeration (names : List String) : String :=
  let quoted := names.map Text.quoted
  match quoted.reverse with
  | last :: other :: [] => other ++ " and " ++ last
  | last :: others@(_ :: _) => ", ".intercalate others.reverse ++ ", and " ++ last
  | _ => String.join quoted

def counted (n : Nat) (sort : String) : String :=
  toString n ++ " " ++ sort ++ (if n = 1 then " argument" else " arguments")

def placesText (least most : Nat) : String :=
  if least = most then counted most "positional"
  else "from " ++ toString least ++ " to " ++ toString most ++ " positional arguments"

def message : CallFault → String
  | missing function arguments =>
    function ++ "() missing " ++ counted arguments.length "required positional" ++ ": "
      ++ enumeration arguments
  | missingNamed function arguments =>
    function ++ "() missing " ++ counted arguments.length "required keyword-only" ++ ": "
      ++ enumeration arguments
  | tooMany function least most given =>
    function ++ "() takes " ++ placesText least most ++ " but " ++ toString given
      ++ (if given = 1 then " was given" else " were given")
  | absent field => field
  | unknownName function name =>
    function ++ "() got an unexpected keyword argument " ++ Text.quoted name

def report (f : CallFault) : Report :=
  match f with
  | absent _ => ⟨.key, some f.message, none⟩
  | _ => ⟨.type, some f.message, none⟩

end CallFault

end Collocation
